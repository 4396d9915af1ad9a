import Duet.Wave.WaveCalls

/-!
# Runs of the client

A run first looks for markers on both sides and leaves both hosts as they are until it knows
that there are none. Then it goes from wave to wave: between two waves neither side has a
marker, and the two sides have a checkpoint that belongs together.
-/

namespace Duet

open Lib Marker

/-- One side between two waves. -/
structure Host.Clean (h : Host) (statePath : StatePath) (checkpoint : Option HostFile × TargetTree) :
    Prop extends h.Untouched statePath checkpoint.1 checkpoint.2 where
  unmarked : h.files (applyAttemptPath statePath) = none
  aside : h.quarantined = []

/-- A side without a marker is untouched since its checkpoint. -/
theorem Host.clean_of_unmarked {h : Host} {statePath : StatePath}
    (unmarked : h.files (applyAttemptPath statePath) = none) (aside : h.quarantined = []) :
    h.Clean statePath (h.files statePath, h.tree) := by
  refine ⟨⟨rfl, rfl, fun file found => ?_, fun file waiting => ?_⟩, unmarked, aside⟩
  · cases unmarked.symm.trans found
  · rw [aside] at waiting
    cases waiting

/-- Between two waves, in some phases of interrupts. -/
def BetweenWaves (p : Profile) (phases : InterruptPhase → Prop)
    (here there : Option HostFile × TargetTree) (begun : List (Nat × String)) (w : World) : Prop :=
  Holds (·.Clean p.localState here) (·.Clean p.remoteState there)
    (fun server _ => server.Calm p.remoteState) Unserved phases begun w

/-- Where a wave may begin. -/
abbrev WaveStart (p : Profile) (here there : Option HostFile × TargetTree)
    (begun : List (Nat × String)) (w : World) : Prop :=
  BetweenWaves p EarlyPhase here there begun w

/-- Neither side has a marker, and the client is not going on. -/
def Rest (p : Profile) (start w : World) : Prop :=
  ∃ here there begun, Agrees p start here there ∧ Unmarked p here there begun w

/-- A wave was completed, or given up before its commit. -/
def AfterWave (p : Profile) (start : World) : Option Entries → World → Prop
  | none, w => Rest p start w
  | some _, w =>
    ∃ here there begun, Agrees p start here there ∧ BetweenWaves p CommitPhase here there begun w

section Runs

variable {p : Profile} {start : World} {here there : Option HostFile × TargetTree}
  {wave : Nat} {attemptId : String} {begun : List (Nat × String)} {w : World}
  {H I : Host → Prop} {K : DuetServerImpl → Host → Prop} {policy : Policy} {sides : Sides}

theorem BetweenWaves.atRest {phases : InterruptPhase → Prop}
    (holds : BetweenWaves p phases here there begun w) : Unmarked p here there begun w :=
  Holds.weaken holds (fun _ known => ⟨known.toUntouched, known.unmarked⟩)
    (fun _ known => ⟨known.toUntouched, known.unmarked⟩) (fun _ _ _ _ => trivial) fun _ _ => trivial

/-- Snapshots that describe their trees are a checkpoint. -/
theorem agrees_of_described {h t : Host}
    (hereDescribed : ∃ entries format, h.files p.localState = some (.snapshot entries format) ∧
      h.tree = .settled wave entries)
    (thereDescribed : ∃ entries format, t.files p.remoteState = some (.snapshot entries format) ∧
      t.tree = .settled wave entries) :
    Agrees p start (h.files p.localState, h.tree) (t.files p.remoteState, t.tree) := by
  obtain ⟨hereEntries, hereFormat, found, settled⟩ := hereDescribed
  obtain ⟨thereEntries, thereFormat, found', settled'⟩ := thereDescribed
  rw [found, settled, found', settled']
  exact .saved wave hereEntries thereEntries hereFormat thereFormat

/-- A wave that is done leaves a checkpoint of both sides. -/
theorem WaveDone.next (done : WaveDone p wave attemptId begun w) :
    ∃ here there begun, Agrees p start here there ∧
      BetweenWaves p CommitPhase here there begun w := by
  refine ⟨_, _, begun, agrees_of_described done.here.described done.there.described, ?_⟩
  refine Holds.weaken done.holds (fun h same => ?_) (fun h same => ?_) (fun _ _ _ idle => idle)
    fun _ committed => committed
  · rw [same]
    exact Host.clean_of_unmarked done.here.unmarked done.here.aside
  · rw [same]
    exact Host.clean_of_unmarked done.there.unmarked done.there.aside

/-- A call that leaves the session on its state file. -/
theorem wp_asks {request : Request} (asks : request.Asks)
    (inStage : InStage policy sides H I EarlyPhase begun)
    (same : ∀ server server' h, server.SameState server' → K server h → K server' h)
    (holds : Holds H I K Unserved EarlyPhase begun w) :
    (clientContract policy).wp (remote request).run
      (Outcome (fun _ w' => Holds H I K Unserved EarlyPhase begun w')
        fun w' => Holds H I K Unserved EarlyPhase begun w') w := by
  refine wp_remote (A := fun _ => I) (B := fun _ => K) earlyPhase_steady inStage
    (fun _ known => known) holds fun server h known idle => ?_
  refine Contract.wp_mono (asks.still I server h known) fun out h' outcome => ?_
  obtain ⟨rfl, kept⟩ := outcome
  rcases out with ⟨error | reply, server'⟩
  · exact same _ _ _ kept idle
  · exact ⟨known, same _ _ _ kept idle⟩

theorem DuetServerImpl.Calm.sameState {server server' : DuetServerImpl}
    (same : server.SameState server') (calm : server.Calm p.remoteState) :
    server'.Calm p.remoteState :=
  ⟨same.remoteState.trans calm.path, same.stagedApply.trans calm.stagedApply⟩

/-! ### One wave -/

theorem Rest.some (rest : Rest p start w) : SomeStage (wavePolicy p start) w := by
  obtain ⟨here, there, begun, agrees, unmarked⟩ := rest
  exact ⟨_, Holds.safe unmarked (inStage_before (before_allowed agrees) (fun _ known => known.1)
    fun _ known => known.1)⟩

theorem start_inStage {phases : InterruptPhase → Prop} (agrees : Agrees p start here there) :
    InStage (wavePolicy p start) ((WaveStage.before here there).sides p)
      (·.Clean p.localState here) (·.Clean p.remoteState there) phases begun :=
  inStage_before (before_allowed agrees) (fun _ known => known.toUntouched)
    fun _ known => known.toUntouched

theorem Host.Clean.renumber {h : Host} {statePath : StatePath}
    {checkpoint : Option HostFile × TargetTree} (clean : h.Clean statePath checkpoint) (n : Nat) :
    { h with wave := n }.Clean statePath checkpoint :=
  ⟨⟨clean.state, clean.tree, clean.marker.found, clean.marker.aside⟩, clean.unmarked, clean.aside⟩

/-- The beginning of a wave, up to its signatures. -/
theorem beginWave_call (agrees : Agrees p start here there) (free : w.server.Free)
    (holds : WaveStart p here there begun w) {failed : World → Prop} :
    (clientContract (wavePolicy p start)).wp (perform (.beginWave attemptId)).run
      (Outcome (fun _ w' => WaveBegun p here there (begun.length + 1)
        ((begun.length + 1, attemptId) :: begun) w') failed) w := by
  refine wp_outcome (wp_beginWave (L := fun server _ => server.Calm p.remoteState)
    earlyPhase_steady (fun _ early => early) (start_inStage agrees)
    (fun _ => start_inStage agrees) free holds
    (fun _ n clean => clean.renumber n) (fun _ n clean => clean.renumber n)
    fun _ _ _ calm => calm) (fun _ _ after => ?_) fun _ failed => failed
  exact Holds.weaken after
    (fun _ known => ⟨⟨known.1.toUntouched, known.1.aside, known.2⟩, known.1.unmarked⟩)
    (fun _ known => ⟨⟨known.1.toUntouched, known.1.aside, known.2⟩, known.1.unmarked⟩)
    (fun _ _ _ calm => calm) fun _ early => early

theorem begun_inStage (agrees : Agrees p start here there) :
    InStage (wavePolicy p start) ((WaveStage.before here there).sides p)
      (fun h => h.Tidy p.localState here.1 here.2 wave ∧
        h.files (applyAttemptPath p.localState) = none)
      (fun h => h.Tidy p.remoteState there.1 there.2 wave ∧
        h.files (applyAttemptPath p.remoteState) = none) EarlyPhase begun :=
  inStage_before (before_allowed agrees) (fun _ known => known.1.toUntouched)
    fun _ known => known.1.toUntouched

theorem WaveBegun.some (agrees : Agrees p start here there)
    (holds : WaveBegun p here there wave begun w) : SomeStage (wavePolicy p start) w :=
  ⟨_, Holds.safe holds (begun_inStage agrees)⟩

theorem setRemoteActions_asks (plan : RunPlan) (actions : Actions) :
    (if plan.strong then Request.setActionsV2 actions else .setActions actions).Asks := by
  split
  · exact .setActionsV2 actions
  · exact .setActions actions

/-- The actions and the signatures of a wave. -/
theorem signatures_call (agrees : Agrees p start here there)
    (holds : WaveBegun p here there wave begun w) {failed : World → Prop} :
    (clientContract (wavePolicy p start)).wp (join (host (.check .query)) .query).run
      (Outcome (fun _ w' => WaveBegun p here there wave begun w') failed) w := by
  refine wp_outcome (wp_join (E := failed)
    (R := fun _ _ => True) (A := fun _ h => h.Tidy p.remoteState there.1 there.2 wave ∧
      h.files (applyAttemptPath p.remoteState) = none)
    (B := fun _ server _ => server.Calm p.remoteState)
    (D := fun server _ => server.Calm p.remoteState) earlyPhase_steady (begun_inStage agrees)
    (fun _ known => known) (fun _ known => known) holds (fun server h known calm => ?_)
    fun h known => Contract.wp_mono (readOnly_keeping (check_readOnly .query) known)
      fun _ _ _ => trivial) (fun results w₁ outcome => ?_) fun _ failed => failed
  · refine Contract.wp_mono (query_call known) fun out h' same => ?_
    obtain ⟨rfl, same⟩ := same
    rcases out with ⟨error | reply, server'⟩
    · exact same ▸ calm
    · exact ⟨known, same ▸ calm⟩
  · obtain ⟨mine, theirs⟩ := results
    cases theirs with
    | ok reply =>
      exact Holds.weaken outcome (fun _ known => known.1) (fun _ known => known)
        (fun _ _ _ calm => calm) fun _ early => early
    | error error =>
      exact Holds.weaken outcome (fun _ known => known.1) (fun _ known => known)
        (fun _ _ _ calm => calm) fun _ early => early

/-- A wave that is prepared is validated and committed, or given up. -/
theorem commitPrepared_call (agrees : Agrees p start here there) (plan : RunPlan)
    {prepared : PreparedApply} (member : (wave, attemptId) ∈ begun)
    (of : prepared.inner.Of p attemptId)
    (holds : PreparedBoth p here there wave attemptId begun w) :
    (clientContract (wavePolicy p start)).wp (show ClientM (Option Entries) from do
        validateBoth prepared attemptId
        if ← interrupt tryBeginCommit then
          return some (← commitBoth p.context plan prepared attemptId)
        else
          abortInterrupted prepared.abort attemptId
            "sync interrupted before staged commit" none).run
      (Outcome (AfterWave p start) (SomeStage (wavePolicy p start))) w := by
  have allowed := before_allowed agrees
  refine wp_then (wp_outcome (validateBoth_call agrees of holds) (fun _ _ known => known)
    fun _ failed => failed.some agrees) fun _ w₁ validated => ?_
  refine wp_then (wp_interrupt anyPhase_steady (inStage_before allowed
    (fun _ known => known.1.toUntouched) fun _ known => known.1.toUntouched) (fun _ _ => trivial)
    validated fun _ early => tryBeginCommit_spec early) fun begins w₂ decided => ?_
  cases begins with
  | true =>
    refine wp_then (commitBoth_call member plan prepared (decided.weaken
      (fun _ known => known.1.committing known.2) (fun _ known => known.1.committing known.2)
      (fun _ _ _ idle => idle) fun _ committed => .inl committed)) fun _ w₃ done => done.next
  | false =>
    have canAbort : CanAbort p here there attemptId begun w₂ :=
      decided.weaken (fun _ known => known.1.toUntouched) (fun _ known => known.1.toUntouched)
        (fun _ _ _ idle => .prepared idle) fun _ cancelled => .inr cancelled
    exact wp_outcome (abortInterrupted_call allowed of.abort canAbort (R := AfterWave p start)
      fun _ unmarked => ⟨here, there, begun, agrees, unmarked⟩) (fun _ _ known => known)
      fun _ failed => failed.stopped.some agrees

theorem runWave_call (agrees : Agrees p start here there) (plan : RunPlan) (wc : WaveContext)
    (holds : WaveStart p here there begun w) :
    (clientContract (wavePolicy p start)).wp (runWave p.context plan wc).run
      (Outcome (AfterWave p start) (SomeStage (wavePolicy p start))) w := by
  have allowed := before_allowed agrees
  have stage : InStage _ _ _ _ EarlyPhase begun := start_inStage agrees
  refine wp_then (wp_poll earlyPhase_steady stage holds) fun cancelled w₁ polled => ?_
  have started : WaveStart p here there begun w₁ := polled
  cases cancelled with
  | true => exact ⟨here, there, begun, agrees, started.atRest⟩
  | false =>
    refine wp_then (wp_outcome (wp_check earlyPhase_steady stage polled) (fun _ _ known => known)
      fun _ failed => ⟨_, failed.safe stage⟩) fun _ w₂ checked => ?_
    refine wp_then (wp_outcome (wp_query_free earlyPhase_steady stage checked) (fun _ _ known => known)
      fun _ failed => ⟨_, failed.safe stage⟩) fun _ w₃ asked => ?_
    refine wp_then (beginWave_call agrees asked.2 asked.1) fun _ w₄ beginning => ?_
    refine wp_then (wp_outcome (wp_asks (setRemoteActions_asks plan _) (begun_inStage agrees)
      (fun _ _ _ same calm => calm.sameState same) beginning) (fun _ _ known => known)
      fun _ failed => WaveBegun.some agrees failed) fun _ w₅ actions => ?_
    refine wp_then (signatures_call agrees actions) fun results w₆ signed => ?_
    obtain ⟨mine, theirs⟩ := results
    cases mine with
    | error error => exact signed.some agrees
    | ok _ =>
      cases theirs with
      | error error => exact signed.some agrees
      | ok _ =>
        refine wp_then (wp_outcome (streamDetailedChanges_call allowed plan wc rfl signed)
          (fun _ _ known => known) fun _ failed => failed.some agrees) fun prepared w₇ streamed => ?_
        cases prepared with
        | none => exact ⟨here, there, _, agrees, streamed⟩
        | some prepared =>
          obtain ⟨of, both⟩ := streamed
          dsimp only
          split
          · exact wp_outcome (abortAndThrow_call allowed of.abort both.canAbort)
              (fun _ _ known => known) fun _ failed => failed.stopped.some agrees
          · exact commitPrepared_call agrees plan List.mem_cons_self of both

/-- The waves of a plan, each from the checkpoint of the one before. -/
theorem runWaves_call (plan : RunPlan) (count : Nat) (waves : List Actions) :
    ∀ {w : World} {here there : Option HostFile × TargetTree} {begun : List (Nat × String)}
      (index : Nat) (allOld : Entries), Agrees p start here there →
      WaveStart p here there begun w →
      (clientContract (wavePolicy p start)).wp
        (runWaves p.context plan count index allOld waves).run
        (Outcome (fun _ w' => Rest p start w') (SomeStage (wavePolicy p start))) w := by
  induction waves with
  | nil =>
    intro w here there begun index allOld agrees holds
    exact ⟨here, there, begun, agrees, holds.atRest⟩
  | cons actions waves ih =>
    intro w here there begun index allOld agrees holds
    refine wp_then (runWave_call agrees plan _ holds) fun entries w₁ after => ?_
    cases entries with
    | none => exact after
    | some entries =>
      obtain ⟨here₁, there₁, begun₁, agrees₁, started⟩ := after
      dsimp only
      split
      · exact ⟨here₁, there₁, begun₁, agrees₁, started.atRest⟩
      · refine wp_then (wp_interrupt anyPhase_steady (start_inStage agrees₁) (fun _ _ => trivial)
          started fun _ committed => tryResetAfterCheckpoint_spec committed)
          fun reset w₂ decided => ?_
        rcases decided.phase with ⟨rfl, early⟩ | ⟨rfl, -⟩
        · exact ih _ _ agrees₁ { decided with phase := early }
        · exact ⟨here₁, there₁, begun₁, agrees₁, BetweenWaves.atRest decided⟩

/-! ### The decision -/

theorem WaveStart.some (agrees : Agrees p start here there)
    (holds : WaveStart p here there begun w) : SomeStage (wavePolicy p start) w :=
  ⟨_, Holds.safe holds (start_inStage agrees)⟩

theorem preflight_call (agrees : Agrees p start here there) (active : Actions)
    (holds : WaveStart p here there begun w) :
    (clientContract (wavePolicy p start)).wp (preflight p.context active).run
      (Outcome (fun _ w' => WaveStart p here there begun w') (SomeStage (wavePolicy p start))) w := by
  have stage : InStage _ _ _ _ EarlyPhase begun := start_inStage agrees
  have query : ∀ {w : World}, WaveStart p here there begun w →
      (clientContract (wavePolicy p start)).wp (remote .query).run
        (Outcome (fun _ w' => WaveStart p here there begun w') (SomeStage (wavePolicy p start))) w :=
    fun holds => wp_outcome (wp_query earlyPhase_steady stage holds) (fun _ _ known => known)
      fun _ failed => WaveStart.some agrees failed
  have check : ∀ {w : World} (what : HostCheck), WaveStart p here there begun w →
      (clientContract (wavePolicy p start)).wp (Duet.here (host (.check what))).run
        (Outcome (fun _ w' => WaveStart p here there begun w') (SomeStage (wavePolicy p start))) w :=
    fun what holds => wp_outcome (wp_check earlyPhase_steady stage holds) (fun _ _ known => known)
      fun _ failed => WaveStart.some agrees failed
  refine wp_then (query holds) fun _ w₁ asked => ?_
  refine wp_then (check _ asked) fun _ w₂ checked => ?_
  refine wp_then (check _ checked) fun _ w₃ checked => ?_
  refine wp_then (query checked) fun _ w₄ asked => ?_
  refine wp_then (check _ asked) fun _ w₅ checked => ?_
  exact wp_then (query checked) fun _ w₆ asked => asked

theorem applyDecision_call (agrees : Agrees p start here there) (plan : RunPlan) (allOld : Entries)
    (decision : Except SyncError SyncDecision) (holds : WaveStart p here there begun w) :
    (clientContract (wavePolicy p start)).wp (applyDecision p.context plan allOld decision).run
      (Outcome (fun _ w' => Rest p start w') (SomeStage (wavePolicy p start))) w := by
  rcases decision with error | decision
  · exact holds.some agrees
  · cases decision with
    | finish outcome => exact ⟨here, there, begun, agrees, holds.atRest⟩
    | apply active =>
      refine wp_then (preflight_call agrees active holds) fun _ w₁ checked => ?_
      refine wp_then (wp_poll earlyPhase_steady (start_inStage agrees) checked) fun cancelled w₂ polled => ?_
      have started : WaveStart p here there begun w₂ := polled
      cases cancelled with
      | true => exact ⟨here, there, begun, agrees, started.atRest⟩
      | false => exact runWaves_call plan _ _ 0 allOld agrees started

theorem afterResolution_call (agrees : Agrees p start here there) (plan : RunPlan)
    (allOld : Entries) (decision : Except SyncError SyncDecision)
    (holds : WaveStart p here there begun w) :
    (clientContract (wavePolicy p start)).wp (afterResolution p.context plan allOld decision).run
      (Outcome (fun _ w' => Rest p start w') (SomeStage (wavePolicy p start))) w := by
  have stage : InStage _ _ _ _ EarlyPhase begun := start_inStage agrees
  unfold afterResolution
  split
  · refine wp_then (wp_interrupt anyPhase_steady (start_inStage agrees) (fun _ _ => trivial) holds
      fun phase _ => requestInterrupt_spec phase) fun requested w₁ after => ?_
    have rest : Rest p start w₁ := ⟨here, there, begun, agrees, BetweenWaves.atRest after⟩
    rcases requested with _ | request
    · exact absurd rfl after.phase
    · cases request with
      | force => exact rest.some
      | cancel => exact rest
      | deferred => exact rest
  · refine wp_then (wp_poll earlyPhase_steady stage holds) fun cancelled w₁ polled => ?_
    have started : WaveStart p here there begun w₁ := polled
    cases cancelled with
    | true => exact ⟨here, there, begun, agrees, started.atRest⟩
    | false => exact applyDecision_call agrees plan allOld _ started

theorem resolveAndApply_call (agrees : Agrees p start here there) (plan : RunPlan)
    (contextL contextR : State.ScanContext) (holds : WaveStart p here there begun w) :
    (clientContract (wavePolicy p start)).wp
      (resolveAndApply p.context plan contextL contextR).run
      (Outcome (fun _ w' => Rest p start w') (SomeStage (wavePolicy p start))) w := by
  unfold resolveAndApply
  dsimp only
  split
  · refine wp_then (wp_outcome (wp_asks .prepareMigrationV2 (start_inStage agrees)
      (fun _ _ _ same calm => calm.sameState same) holds) (fun _ _ known => known)
      fun _ failed => WaveStart.some agrees failed) fun _ w₁ asked => ?_
    exact afterResolution_call agrees plan _ _ asked
  · exact afterResolution_call agrees plan _ _ holds

/-! ### The beginning and the end of a run -/

/-- A state of rest, in which the two hosts satisfy `M` and `M'`. -/
def RestIn (policy : Policy) (M M' : Host → Prop) (w : World) : Prop :=
  ∃ sides H I begun, InStage policy sides H I AnyPhase begun ∧
    Holds H I (fun _ _ => True) Unserved AnyPhase begun w ∧ (∀ h, H h → M h) ∧ ∀ h, I h → M' h

theorem RestIn.mono {M M' N N' : Host → Prop} (rest : RestIn policy M M' w)
    (here : ∀ h, M h → N h) (there : ∀ h, M' h → N' h) : RestIn policy N N' w := by
  obtain ⟨sides, H, I, begun, inStage, holds, ofHere, ofThere⟩ := rest
  exact ⟨sides, H, I, begun, inStage, holds, fun h known => here h (ofHere h known),
    fun h known => there h (ofThere h known)⟩

theorem RestIn.some {M M' : Host → Prop} (rest : RestIn policy M M' w) : SomeStage policy w := by
  obtain ⟨sides, H, I, begun, inStage, holds, -, -⟩ := rest
  exact ⟨sides, holds.safe inStage⟩

theorem Rest.restIn (rest : Rest p start w) : RestIn (wavePolicy p start)
    (fun h => h.files (applyAttemptPath p.localState) = none)
    (fun h => h.files (applyAttemptPath p.remoteState) = none) w := by
  obtain ⟨here, there, begun, agrees, unmarked⟩ := rest
  exact ⟨_, _, _, begun, inStage_before (before_allowed agrees) (fun _ known => known.1)
    fun _ known => known.1, unmarked, fun _ known => known.2, fun _ known => known.2⟩

/-- The end of the connection changes nothing on the hosts, and its outcome is the one of the
run, or that it was interrupted. -/
theorem endConnection_settles {phases : InterruptPhase → Prop}
    {Q : Except Report Reply → DuetServerImpl → Host → Prop} {result : Except Report SyncOutcome}
    (inStage : InStage policy sides H I sides.phase begun)
    (inside : ∀ phase, phases phase → sides.phase phase) (steady : Steady phases)
    (holds : Holds H I K Q phases begun w) :
    (clientContract policy).wp (endConnection result).run
      (Outcome (fun outcome w' => Holds H I (fun _ _ => True) Unserved sides.phase begun w' ∧
        ∃ kept, result = .ok kept ∧
          ((outcome = kept ∧ LatePhase w'.phase) ∨ outcome = .interrupted)) (SomeStage policy))
      w := by
  refine wp_then (wp_wait (L := fun _ _ => True) (R := Unserved) steady
    ⟨inStage.here, inStage.there, inside, inStage.allowed⟩ holds) fun waited w₁ ended => ?_
  refine wp_then (wp_interrupt sides.steady inStage inside ended
    fun _ known => complete_spec sides.steady sides.lasting (inside _ known))
    fun cancelled w₂ settled => ?_
  have kept : Holds H I (fun _ _ => True) Unserved sides.phase begun w₂ :=
    { settled with phase := settled.phase.1 }
  have failed : SomeStage policy w₂ := ⟨sides, kept.safe inStage⟩
  rcases settled.phase.2 with ⟨rfl, -⟩ | ⟨rfl, completed⟩
  · cases result with
    | error error => cases waited <;> exact failed
    | ok outcome =>
      cases waited with
      | error wait => exact failed
      | ok _ => exact ⟨kept, outcome, rfl, .inr rfl⟩
  · have late : LatePhase w₂.phase := by
      rcases completed with same | same <;> rw [same] <;> exact nofun
    cases result with
    | error error => cases waited <;> exact failed
    | ok outcome =>
      cases waited with
      | error wait => exact failed
      | ok _ => exact ⟨kept, outcome, rfl, .inl ⟨rfl, late⟩⟩

/-- What an outcome says about the hosts is still so at the end of the run, and it is not
cancelled any more. -/
theorem endConnection_call {M M' : SyncOutcome → Host → Prop}
    (relax : ∀ outcome h, M outcome h → M .interrupted h)
    (relax' : ∀ outcome h, M' outcome h → M' .interrupted h) {result : Except Report SyncOutcome}
    (holds : Outcome (fun outcome w' => RestIn policy (M outcome) (M' outcome) w')
      (SomeStage policy) result w) :
    (clientContract policy).wp (endConnection result).run
      (Outcome (fun outcome w' => RestIn policy (M outcome) (M' outcome) w' ∧
        (outcome = .interrupted ∨ LatePhase w'.phase)) (SomeStage policy)) w := by
  cases result with
  | error error =>
    obtain ⟨sides, safe⟩ := holds
    have inStage : InStage policy sides sides.here sides.there sides.phase w.begun :=
      ⟨fun _ known => known, fun _ known => known, fun _ known => known, safe.allowed⟩
    refine wp_outcome (endConnection_settles inStage (fun _ known => known) sides.steady
      ⟨safe.here, safe.server, safe.phase, rfl⟩) (fun outcome w' after => ?_) fun _ failed => failed
    obtain ⟨-, kept, same, -⟩ := after
    cases same
  | ok outcome =>
    obtain ⟨sides, H, I, begun, inStage, rest, ofHere, ofThere⟩ := holds
    refine wp_outcome (endConnection_settles ⟨inStage.here, inStage.there, fun _ known => known,
      inStage.allowed⟩ inStage.phase anyPhase_steady rest) (fun outcome' w' after => ?_)
      fun _ failed => failed
    obtain ⟨kept, _, same, ⟨rfl, late⟩ | rfl⟩ := after
    · cases same
      exact ⟨⟨sides, H, I, begun, inStage, { kept with phase := trivial }, ofHere, ofThere⟩,
        .inr late⟩
    · cases same
      exact ⟨⟨sides, H, I, begun, inStage, { kept with phase := trivial },
        fun h known => relax _ h (ofHere h known), fun h known => relax' _ h (ofThere h known)⟩,
        .inl rfl⟩

/-- A session that is not used yet. -/
structure DuetServerImpl.Connected (server : DuetServerImpl) (stateDir : Path) : Prop where
  stagedApply : server.stagedApply = none
  remoteStateDir : server.remoteStateDir = stateDir

theorem DuetServerImpl.Connected.sameState {server server' : DuetServerImpl} {stateDir : Path}
    (same : server.SameState server') (connected : server.Connected stateDir) :
    server'.Connected stateDir :=
  ⟨same.stagedApply.trans connected.stagedApply, same.remoteStateDir.trans connected.remoteStateDir⟩

variable {h t : Host} {stateDir : Path}

theorem frozen_inStage {phases : InterruptPhase → Prop} (allowed : policy begun (frozen h t)) :
    InStage policy (frozen h t) (· = h) (· = t) phases begun :=
  ⟨fun _ same => same, fun _ same => same, fun _ _ => trivial, allowed⟩

/-- A run that has not looked at the state files yet. -/
def Untried (h t : Host) (stateDir : Path) (begun : List (Nat × String)) (w : World) : Prop :=
  Holds (· = h) (· = t) (fun server _ => server.Connected stateDir) Unserved EarlyPhase begun w

theorem Untried.some (allowed : policy begun (frozen h t)) (untried : Untried h t stateDir begun w) :
    SomeStage policy w :=
  ⟨_, Holds.safe untried (frozen_inStage allowed)⟩

theorem asks_untried (allowed : policy begun (frozen h t)) {request : Request} (asks : request.Asks)
    (untried : Untried h t stateDir begun w) :
    (clientContract policy).wp (remote request).run
      (Outcome (fun _ w' => Untried h t stateDir begun w') (SomeStage policy)) w :=
  wp_outcome (wp_asks asks (frozen_inStage allowed) (fun _ _ _ same connected =>
    connected.sameState same) untried) (fun _ _ known => known)
    fun _ failed => Untried.some allowed failed

theorem connect_call (allowed : policy begun (frozen h t))
    (untried : Untried h t p.serverDir begun w) :
    (clientContract policy).wp (connect p.context).run
      (Outcome (fun _ w' => Untried h t (p.context.remoteStateDir.getD p.serverDir) begun w')
        (SomeStage policy)) w := by
  refine wp_then (asks_untried allowed (.setBase _) untried) fun _ w₁ based => ?_
  refine wp_then (asks_untried allowed .query based) fun _ w₂ asked => ?_
  cases chosen : p.context.remoteStateDir with
  | none => exact wp_then (asks_untried allowed .query asked) fun _ w₃ selected => selected
  | some dir =>
    refine wp_then (wp_outcome (wp_remote (A := fun _ => (· = t))
      (B := fun _ server _ => server.Connected dir) (D := fun _ _ => True) earlyPhase_steady
      (frozen_inStage allowed) (fun _ known => known) asked fun server g known connected => ?_)
      (fun _ _ known => known) fun _ failed => ⟨_, failed.safe (frozen_inStage allowed)⟩)
      fun _ w₃ moved => ?_
    · exact ⟨known, connected.stagedApply, rfl⟩
    · exact wp_then (asks_untried allowed .query moved) fun _ w₄ selected => selected

/-- What the outcome of a run says: there is no marker on the own side, and none on the other
one unless the run was interrupted. -/
def Finished (p : Profile) (policy : Policy) (outcome : SyncOutcome) (w : World) : Prop :=
  RestIn policy (fun h => h.files (applyAttemptPath p.localState) = none)
    (fun h => outcome ≠ .interrupted → h.files (applyAttemptPath p.remoteState) = none) w

theorem Rest.finished (rest : Rest p start w) (outcome : SyncOutcome) :
    Finished p (wavePolicy p start) outcome w :=
  rest.restIn.mono (fun _ known => known) fun _ known _ => known

theorem Untried.finished (allowed : policy begun (frozen h t))
    (unmarked : h.files (applyAttemptPath p.localState) = none)
    (untried : Untried h t stateDir begun w) : Finished p policy .interrupted w :=
  ⟨_, _, _, begun, frozen_inStage allowed, Holds.weaken untried (fun _ known => known)
    (fun _ known => known) (fun _ _ _ _ => trivial) fun _ _ => trivial,
    fun _ same => same ▸ unmarked, fun _ _ differs => absurd rfl differs⟩

/-- The server answers with its changes only if it has no marker. -/
theorem changes_call (context : SyncContext) {server : DuetServerImpl}
    (connected : server.Connected stateDir) {h : Host} (start : I h) :
    (Contract.keeping Host.exec I).wp ((serve (changesRequest context)).run server)
      (fun out h' => h' = h ∧ ∀ reply, out.1 = .ok reply →
        out.2.Calm (remoteStateIn stateDir context.remoteId) ∧
        h.files (applyAttemptPath (remoteStateIn stateDir context.remoteId)) = none) h := by
  have scanned : ∀ scope : ScanScope, (Contract.keeping Host.exec I).wp
      ((do return .changes (← scanChanges scope context.remoteId) : Handler Reply).run server)
      (fun out h' => h' = h ∧ ∀ reply, out.1 = .ok reply →
        out.2.Calm (remoteStateIn stateDir context.remoteId) ∧
        h.files (applyAttemptPath (remoteStateIn stateDir context.remoteId)) = none) h := by
    intro scope
    refine Handler.wp_reply (Contract.wp_mono (scanChanges_call scope context.remoteId start)
      fun out h' outcome => ?_)
    obtain ⟨rfl, staged, found⟩ := outcome
    refine ⟨rfl, fun reply same => ?_⟩
    rcases out with ⟨error | value, server'⟩
    · cases same
    · obtain ⟨path, absent⟩ := found value rfl
      rw [connected.remoteStateDir] at path absent
      exact ⟨⟨path, staged.trans connected.stagedApply⟩, absent⟩
  unfold changesRequest
  split
  · exact scanned _
  · exact scanned _

theorem scanAndApply_call (allowed : policy begun (frozen h t)) (plan : RunPlan)
    (unmarked : h.files (applyAttemptPath p.localState) = none)
    (continues : t.files (applyAttemptPath p.remoteState) = none →
      ∀ contextL contextR w, Holds (· = h) (· = t) (fun server _ => server.Calm p.remoteState)
        Unserved EarlyPhase begun w →
      (clientContract policy).wp (resolveAndApply p.context plan contextL contextR).run
        (Outcome (Finished p policy) (SomeStage policy)) w)
    (untried : Untried h t (p.context.remoteStateDir.getD p.serverDir) begun w) :
    (clientContract policy).wp (scanAndApply p.context plan).run
      (Outcome (Finished p policy) (SomeStage policy)) w := by
  have stage : InStage _ _ _ _ EarlyPhase _ := frozen_inStage allowed
  have scan : (scanLocal p.context).Uses HostOp.ReadOnly :=
    HostM.Uses.op ⟨rfl, trivial, nofun, nofun⟩
  refine wp_then (wp_outcome (wp_join (R := fun _ h' => h' = h) (E := SomeStage policy)
    (A := fun _ h' => h' = t ∧ t.files (applyAttemptPath p.remoteState) = none)
    (B := fun _ server _ => server.Calm p.remoteState) (D := fun _ _ => True) earlyPhase_steady
    stage (fun _ known => known) (fun _ known => known) untried
    (fun server g known connected => ?_) fun g known => ?_) (fun _ _ outcome => outcome)
    fun _ failed => failed) fun results w₁ outcome => ?_
  · subst known
    refine Contract.wp_mono (changes_call p.context connected rfl) fun out h' replied => ?_
    obtain ⟨rfl, found⟩ := replied
    rcases out with ⟨error | reply, server'⟩
    · trivial
    · exact ⟨⟨rfl, (found reply rfl).2⟩, (found reply rfl).1⟩
  · subst known
    exact readOnly_keeping scan rfl
  · obtain ⟨mine, theirs⟩ := results
    have some : ∀ {R : Host → Prop} {J : Host → Prop} {K : DuetServerImpl → Host → Prop} {w : World},
        (∀ g, R g → g = h) → (∀ g, J g → g = t) → Holds R J K Unserved EarlyPhase begun w →
        SomeStage policy w := fun mine theirs holds => ⟨_, holds.safe (stage.mono mine theirs)⟩
    cases theirs with
    | error error =>
      cases mine <;> exact some (fun _ known => known.1) (fun _ known => known) outcome
    | ok reply =>
      have absent : t.files (applyAttemptPath p.remoteState) = none := outcome.server.host.2
      have calm : Holds (· = h) (· = t) (fun server _ => server.Calm p.remoteState) Unserved
          EarlyPhase begun w₁ := Holds.weaken outcome (fun _ known => known.1)
        (fun _ known => known.1) (fun _ _ _ idle => idle) fun _ early => early
      have finished : ∀ {w : World}, Holds (· = h) (· = t)
          (fun server _ => server.Calm p.remoteState) Unserved EarlyPhase begun w →
          Finished p policy .interrupted w := fun holds =>
        ⟨_, _, _, begun, frozen_inStage allowed, Holds.weaken holds (fun _ known => known)
          (fun _ known => known) (fun _ _ _ _ => trivial) fun _ _ => trivial,
          fun _ same => same ▸ unmarked, fun _ _ differs => absurd rfl differs⟩
      cases mine with
      | error error => exact some (fun _ known => known) (fun _ known => known) calm
      | ok contextL =>
        cases reply with
        | changes found =>
          refine wp_then (wp_poll earlyPhase_steady stage calm) fun cancelled w₂ polled => ?_
          split_ifs
          · exact finished polled
          refine wp_then (wp_outcome (wp_query earlyPhase_steady stage polled)
            (fun _ _ known => known) fun _ failed => ⟨_, failed.safe stage⟩) fun _ w₃ asked => ?_
          refine wp_then (wp_poll earlyPhase_steady stage asked) fun cancelled w₄ polled => ?_
          split_ifs
          · exact finished polled
          exact continues absent _ _ _ polled
        | _ => exact some (fun _ known => known) (fun _ known => known) calm

theorem syncConnected_call (allowed : policy begun (frozen h t)) (plan : RunPlan)
    (unmarked : h.files (applyAttemptPath p.localState) = none)
    (continues : t.files (applyAttemptPath p.remoteState) = none →
      ∀ contextL contextR w, Holds (· = h) (· = t) (fun server _ => server.Calm p.remoteState)
        Unserved EarlyPhase begun w →
      (clientContract policy).wp (resolveAndApply p.context plan contextL contextR).run
        (Outcome (Finished p policy) (SomeStage policy)) w)
    (untried : Untried h t p.serverDir begun w) :
    (clientContract policy).wp (syncConnected p.context plan).run
      (Outcome (Finished p policy) (SomeStage policy)) w := by
  have stage : InStage _ _ _ _ EarlyPhase _ := frozen_inStage allowed
  refine wp_then (wp_poll earlyPhase_steady stage untried) fun cancelled w₁ polled => ?_
  split_ifs
  · exact Untried.finished allowed unmarked polled
  refine wp_then (connect_call allowed polled) fun _ w₂ connected => ?_
  refine wp_then (wp_poll earlyPhase_steady stage connected) fun cancelled w₃ polled => ?_
  split_ifs
  · exact Untried.finished allowed unmarked polled
  exact scanAndApply_call allowed plan unmarked continues polled

/-- What a run ends with: unless it was interrupted, it cannot be cancelled any more. -/
def Returned (p : Profile) (policy : Policy) (outcome : SyncOutcome) (w : World) : Prop :=
  Finished p policy outcome w ∧ (outcome = .interrupted ∨ LatePhase w.phase)

/-- A run leaves both hosts as they are until it knows that neither side has a marker. -/
theorem sync_call (allowed : policy begun (frozen h t)) (plan : RunPlan)
    (continues : h.files (applyAttemptPath p.localState) = none →
      t.files (applyAttemptPath p.remoteState) = none →
      ∀ contextL contextR w, Holds (· = h) (· = t) (fun server _ => server.Calm p.remoteState)
        Unserved EarlyPhase begun w →
      (clientContract policy).wp (resolveAndApply p.context plan contextL contextR).run
        (Outcome (Finished p policy) (SomeStage policy)) w)
    (untried : Untried h t p.serverDir begun w) :
    (clientContract policy).wp (sync p.context plan).run
      (Outcome (Returned p policy) (SomeStage policy)) w := by
  have stage : InStage _ _ _ _ EarlyPhase _ := frozen_inStage allowed
  refine Contract.wp_run_bind.mpr (Contract.wp_mono (wp_here (G := (· = h))
    (R := fun result _ => result = .ok () → h.files (applyAttemptPath p.localState) = none)
    earlyPhase_steady stage (fun _ known => known) untried fun g known => ?_)
    fun result w₁ cleared => ?_)
  · subst known
    exact Contract.keeping_mono (@Contract.keeping_and _ _ _ _ (· = g) (fun _ => True) _ _ _ _
      (readOnly_keeping (checkApplyAttemptClear_readOnly p.localState) rfl)
      checkApplyAttemptClear_absent) (fun _ kept => kept.1) fun _ _ kept => kept.2
  · have still : Untried h t p.serverDir begun w₁ := { cleared with here := cleared.here.1 }
    cases result with
    | error error => exact Untried.some allowed still
    | ok _ =>
      have unmarked := cleared.here.2 rfl
      refine wp_then (wp_poll earlyPhase_steady stage still) fun cancelled w₂ polled => ?_
      split_ifs
      · exact ⟨Untried.finished allowed unmarked polled, .inl rfl⟩
      refine wp_then (wp_poll earlyPhase_steady stage polled) fun cancelled w₃ polled => ?_
      split_ifs
      · exact ⟨Untried.finished allowed unmarked polled, .inl rfl⟩
      refine wp_then (wp_result (syncConnected_call allowed plan unmarked (continues unmarked)
        polled)) fun result w₄ outcome => ?_
      exact endConnection_call (fun _ _ known => known) (fun _ _ _ differs => absurd rfl differs)
        outcome

end Runs

end Duet

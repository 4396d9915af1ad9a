import Duet.Wave.Trial

/-!
# Two synchronized hosts

What holds in every state that a client, a server and the interrupts of a user can reach, in any
number of runs of the staged strategy, with crashes of either process and lost connections at any
point. The runs have one profile and one scope, and each starts when the server of the one before
has ended.

* a tree is mutated only in a wave that both sides have prepared and validated, and while both
  have a marker of it;
* as soon as one side has no marker, the two sides are as at the start, or both have a snapshot
  of one wave that describes its tree;
* a marker of a commit is removed only after both snapshots are saved;
* a marker that is left on either side keeps every later run from changing anything;
* an interrupt stops the run before the next commit, or keeps it from a next wave.
-/

namespace Duet

open Lib Marker

/-! ## A run with two waves -/

namespace Trial

def file : DirEntryWithMeta := ⟨[.normal [97]], 0, 0, 7, 0o100644, none, false, 1, none⟩

def otherFile : DirEntryWithMeta := ⟨[.normal [98]], 0, 0, 8, 0o100644, none, false, 1, none⟩

/-- The other side has removed both files. -/
def scans : Scans :=
  ⟨⟨[file, otherFile], [], [file, otherFile], false⟩,
    ⟨[file, otherFile], [.removed file, .removed otherFile], [], false⟩⟩

def profile : Profile :=
  ⟨⟨[], "base", ⟨[], []⟩, ⟨[], "profile"⟩, none, "profile"⟩, [.normal [114]]⟩

/-- Each action has a wave of its own. -/
def plan : RunPlan where
  strong := false
  dryRun := false
  answer := ⟨.proceed, fun _ => none⟩
  waves actions := actions.map fun action => [action]
  rounds _ := [⟨some 1, none⟩]
  reportsMatch := true
  streamPerformance := false
  applyAttemptId := "attempt"

def host : Host := ⟨fun _ => none, [], .settled 0 [file, otherFile], 0, [], []⟩

def start : System := ⟨⟨host, host, .gone, .preCommit, []⟩, none⟩

theorem initial : start.Initial profile :=
  ⟨rfl, rfl, rfl, rfl, rfl, rfl, rfl, ⟨_, rfl⟩, ⟨_, rfl⟩⟩

/-- The system after so many operations of a client that starts. -/
def after (operations : Nat) : System :=
  System.advance scans operations
    ⟨⟨host, host, .idle (.new profile.serverDir), .preCommit, []⟩,
      some (sync profile.context plan).run⟩

theorem reaches_after (operations : Nat) : System.Reaches profile start (after operations) := by
  have started : System.Reaches profile start _ :=
    .step (.start initial) (.starts start.world rfl plan)
  exact started.continues (System.advance_steps operations _)

/-- An operation on the own host is one step. -/
theorem step_after (operations : Nat) (here : (after operations).nextHere = true) :
    System.Step profile (after operations) (after (operations + 1)) := by
  unfold after at here ⊢
  rw [System.advance_succ]
  exact System.advance_here here

/-- Both processes crash after so many operations. -/
def crashed (operations : Nat) : System :=
  ⟨{ (after operations).world with server := .gone }, none⟩

/-- Another client has started after that, and made so many operations. -/
def rerun (operations more : Nat) : System :=
  System.advance scans more
    ⟨{ (crashed operations).world with
        here := (crashed operations).world.here.restarted
        there := (crashed operations).world.there.restarted
        server := .idle (.new profile.serverDir)
        phase := .preCommit },
      some (sync profile.context plan).run⟩

theorem steps_rerun (operations more : Nat) :
    Relation.ReflTransGen (System.Step profile) (crashed operations) (rerun operations more) :=
  .head (.starts _ rfl plan)
    (System.Continues.steps (System.advance_steps more _))

/-- The run is interrupted after so many operations. -/
def interrupted (operations : Nat) (phase : InterruptPhase) : System :=
  ⟨{ (after operations).world with phase := phase }, (after operations).client⟩

theorem reaches_interrupted {operations : Nat} {seen phase : InterruptPhase}
    (accepted : seen.Interrupted phase) (found : (after operations).world.phase = seen) :
    System.Reaches profile start (interrupted operations phase) := by
  subst found
  exact .step (reaches_after operations) (.moves (.interrupt accepted))

end Trial

/-! ## Commits -/

/-- The phase of an attempt, if the file is a marker of it. -/
def HostFile.phaseOf (attemptId : String) : HostFile → Option ApplyAttemptPhase
  | .stagedMarker _ id phase _ => if id = attemptId then some phase else none
  | _ => none

/-- There is a marker of an attempt, in a phase that cannot be aborted any more. -/
def Host.MarkedLate (h : Host) (statePath : StatePath) (attemptId : String) : Prop :=
  ∃ phase, (h.files (applyAttemptPath statePath)).bind (·.phaseOf attemptId) = some phase ∧
    ¬ApplyAttemptPhase.Precommit phase

/-- The snapshot of a wave is saved and describes the tree. -/
def Host.Described (h : Host) (statePath : StatePath) (wave : Nat) : Prop :=
  ∃ entries format, h.files statePath = some (.snapshot entries format) ∧
    h.tree = .settled wave entries

section Protocol

variable {p : Profile} {start s s' : System}

theorem Host.MarkedLate.found {h : Host} {statePath : StatePath} {attemptId : String}
    (late : h.MarkedLate statePath attemptId) :
    ∃ header phase records, h.files (applyAttemptPath statePath) =
      some (.stagedMarker header attemptId phase records) ∧ ¬ApplyAttemptPhase.Precommit phase := by
  obtain ⟨phase, phased, past⟩ := late
  obtain ⟨file, found, phased⟩ := Option.bind_eq_some_iff.mp phased
  cases file with
  | stagedMarker header id phase' records =>
    by_cases same : id = attemptId
    · simp only [HostFile.phaseOf, if_pos same, Option.some.injEq] at phased
      exact ⟨header, phase, records, by rw [← phased, ← same]; exact found, past⟩
    · simp only [HostFile.phaseOf, if_neg same, reduceCtorEq] at phased
  | _ => cases phased

/-- Before a commit no side has a late marker, and in a wave it has only markers of it. -/
theorem MarkerIn.late {h : Host} {statePath : StatePath} {attemptId : String}
    {ids : String → Prop} {phases : ApplyAttemptPhase → Prop}
    (marker : h.MarkerIn statePath ids phases) (late : h.MarkedLate statePath attemptId) :
    ids attemptId ∧ ∃ phase, phases phase ∧ ¬ApplyAttemptPhase.Precommit phase := by
  obtain ⟨header, phase, records, found, past⟩ := late.found
  obtain ⟨known, allowed⟩ := marker.found _ found
  exact ⟨known, phase, allowed, past⟩

theorem Marked.late {h : Host} {statePath : StatePath} {attemptId other : String}
    (marked : h.Marked statePath other) (late : h.MarkedLate statePath attemptId) :
    attemptId = other := by
  obtain ⟨header, phase, records, found, -⟩ := late.found
  rcases marked with ⟨header', phase', records', same⟩ | torn
  · cases found.symm.trans same
    rfl
  · cases found.symm.trans torn

theorem checkpoint_settled {here there : Option HostFile × TargetTree}
    (initial : start.Initial p) (agrees : Agrees p start.world here there) :
    (∃ wave entries, here.2 = .settled wave entries) ∧
      ∃ wave entries, there.2 = .settled wave entries := by
  cases agrees with
  | start =>
    obtain ⟨entries, settled⟩ := initial.hereTree
    obtain ⟨entries', settled'⟩ := initial.thereTree
    exact ⟨⟨0, entries, settled⟩, 0, entries', settled'⟩
  | saved wave hereEntries thereEntries => exact ⟨⟨wave, _, rfl⟩, wave, _, rfl⟩

/-- A tree is mutated only in a wave that both sides have prepared and validated, and while both
sides have their marker of it. -/
theorem mutation_needs_both (reaches : System.Reaches p start s)
    (mutating : (∃ wave, s.world.here.tree = .mutating wave) ∨
      ∃ wave, s.world.there.tree = .mutating wave) :
    ∃ wave attemptId, (wave, attemptId) ∈ s.world.begun ∧
      (s.world.here.Ready wave ∧ s.world.here.Marked p.localState attemptId) ∧
      s.world.there.Ready wave ∧ s.world.there.Marked p.remoteState attemptId := by
  obtain ⟨sides, safe⟩ := reaches.follows.stage
  obtain ⟨stage, valid, ofHere, ofThere⟩ := safe.inSomeStage
  have settled : (∃ wave entries, s.world.here.tree = .settled wave entries) →
      (∃ wave entries, s.world.there.tree = .settled wave entries) → False := by
    intro ⟨_, _, here⟩ ⟨_, _, there⟩
    rcases mutating with ⟨wave, mutating⟩ | ⟨wave, mutating⟩
    · cases here.symm.trans mutating
    · cases there.symm.trans mutating
  cases stage with
  | before here there =>
    obtain ⟨hereSettled, thereSettled⟩ := checkpoint_settled reaches.initial valid
    refine (settled ?_ ?_).elim
    · rw [Host.Untouched.tree ofHere]
      exact hereSettled
    · rw [Host.Untouched.tree ofThere]
      exact thereSettled
  | committing wave attemptId =>
    obtain ⟨hereReady, hereMarked, -⟩ := ofHere
    obtain ⟨thereReady, thereMarked, -⟩ := ofThere
    exact ⟨wave, attemptId, valid, ⟨hereReady, hereMarked⟩, thereReady, thereMarked⟩
  | saved wave attemptId =>
    obtain ⟨_, _, _, hereSettled⟩ := Host.Saved.described ofHere
    obtain ⟨_, _, _, thereSettled⟩ := Host.Saved.described ofThere
    exact (settled ⟨_, _, hereSettled⟩ ⟨_, _, thereSettled⟩).elim

/-- In the second wave of the run the own tree is mutated by the 135th operation. -/
theorem mutation_needs_both_trial :
    ∃ wave attemptId, (wave, attemptId) ∈ (Trial.after 135).world.begun ∧
      ((Trial.after 135).world.here.Ready wave ∧
        (Trial.after 135).world.here.Marked Trial.profile.localState attemptId) ∧
      (Trial.after 135).world.there.Ready wave ∧
        (Trial.after 135).world.there.Marked Trial.profile.remoteState attemptId :=
  mutation_needs_both (Trial.reaches_after 135) (.inl ⟨2, by decide +kernel⟩)

/-- A stage that has a late marker is one of the commit of its wave, or after it. -/
theorem late_marker_stage {stage : WaveStage} {h t : Host} {attemptId : String}
    (ofHere : (stage.sides p).here h) (ofThere : (stage.sides p).there t)
    (late : h.MarkedLate p.localState attemptId ∨ t.MarkedLate p.remoteState attemptId) :
    ∃ wave, stage = .committing wave attemptId ∨ stage = .saved wave attemptId := by
  cases stage with
  | before here there =>
    rcases late with late | late
    · obtain ⟨-, phase, precommit, past⟩ := MarkerIn.late (Host.Untouched.marker ofHere) late
      exact absurd precommit past
    · obtain ⟨-, phase, precommit, past⟩ := MarkerIn.late (Host.Untouched.marker ofThere) late
      exact absurd precommit past
  | committing wave other =>
    have same : attemptId = other := by
      rcases late with late | late
      · exact Marked.late (Host.Committing.marked ofHere) late
      · exact Marked.late (Host.Committing.marked ofThere) late
    exact ⟨wave, .inl (same ▸ rfl)⟩
  | saved wave other =>
    have same : attemptId = other := by
      rcases late with late | late
      · exact (MarkerIn.late (Host.Saved.marker ofHere) late).1
      · exact (MarkerIn.late (Host.Saved.marker ofThere) late).1
    exact ⟨wave, .inr (same ▸ rfl)⟩

/-- A late marker on a side is of a wave that both sides have prepared and validated. -/
theorem late_marker_needs_both {attemptId : String} (reaches : System.Reaches p start s)
    (late : s.world.here.MarkedLate p.localState attemptId ∨
      s.world.there.MarkedLate p.remoteState attemptId) :
    ∃ wave, (wave, attemptId) ∈ s.world.begun ∧ s.world.here.Ready wave ∧
      s.world.there.Ready wave := by
  obtain ⟨sides, safe⟩ := reaches.follows.stage
  obtain ⟨stage, valid, ofHere, ofThere⟩ := safe.inSomeStage
  obtain ⟨wave, rfl | rfl⟩ := late_marker_stage ofHere ofThere late
  · exact ⟨wave, valid, Host.Committing.ready ofHere, Host.Committing.ready ofThere⟩
  · exact ⟨wave, valid, Host.Saved.ready ofHere, Host.Saved.ready ofThere⟩

/-- The own marker of the second wave is still there after the 152nd operation, when the other
one is gone. -/
theorem late_marker_needs_both_trial :
    ∃ wave, (wave, "attempt-wave-2-of-2") ∈ (Trial.after 152).world.begun ∧
      (Trial.after 152).world.here.Ready wave ∧ (Trial.after 152).world.there.Ready wave :=
  late_marker_needs_both (Trial.reaches_after 152) (.inl ⟨.finished, by decide +kernel, nofun⟩)

/-! ## Checkpoints -/

/-- As soon as one side has no marker, the two sides are as at the start, or both have a
snapshot of one wave that describes its tree. -/
theorem unmarked_agrees (reaches : System.Reaches p start s)
    (unmarked : s.world.here.files (applyAttemptPath p.localState) = none ∨
      s.world.there.files (applyAttemptPath p.remoteState) = none) :
    Agrees p start.world (s.world.here.files p.localState, s.world.here.tree)
      (s.world.there.files p.remoteState, s.world.there.tree) := by
  obtain ⟨sides, safe⟩ := reaches.follows.stage
  exact safe.inSomeStage.agrees unmarked

/-- In the run on two hosts the other marker is removed first. -/
theorem unmarked_agrees_trial :
    Agrees Trial.profile Trial.start.world
      ((Trial.after 152).world.here.files Trial.profile.localState,
        (Trial.after 152).world.here.tree)
      ((Trial.after 152).world.there.files Trial.profile.remoteState,
        (Trial.after 152).world.there.tree) :=
  unmarked_agrees (Trial.reaches_after 152) (.inr (by decide +kernel))

/-- The two hosts before and after a step are in one stage. -/
theorem common_stage (reaches : System.Reaches p start s) (step : s.Step p s') :
    ∃ stage : WaveStage, stage.Valid p start.world s'.world.begun ∧
      ((stage.sides p).here s.world.here ∧ (stage.sides p).there s.world.there) ∧
      (stage.sides p).here s'.world.here ∧ (stage.sides p).there s'.world.there := by
  have follows := reaches.follows
  obtain ⟨sides, safe⟩ := follows.stage
  cases (follows.step wave_restarts step).2 with
  | within within =>
    obtain ⟨sides, before, after⟩ := within.stage
    obtain ⟨here, server, -, -⟩ := before
    obtain ⟨here', server', -, allowed⟩ := after
    cases allowed with
    | stage valid => exact ⟨_, valid, ⟨here, server.host⟩, here', server'.host⟩
    | frozen valid ofHere ofThere =>
      obtain rfl : s.world.here = _ := here
      obtain rfl : s.world.there = _ := server.host
      have sameHere : s'.world.here = s.world.here := here'
      have sameThere : s'.world.there = s.world.there := server'.host
      rw [sameHere, sameThere]
      exact ⟨_, valid, ⟨ofHere, ofThere⟩, ofHere, ofThere⟩
  | starts _ _ here there begun =>
    obtain ⟨stage, valid, ofHere, ofThere⟩ := safe.inSomeStage
    rw [here, there, begun]
    exact ⟨stage, valid, ⟨ofHere, ofThere⟩, stage.here_restarted ofHere,
      stage.there_restarted ofThere⟩

/-- The snapshots of both sides are saved when the late marker of a wave is removed. -/
theorem late_marker_removed {attemptId : String} (reaches : System.Reaches p start s)
    (step : s.Step p s')
    (removed : (s.world.here.MarkedLate p.localState attemptId ∧
        s'.world.here.files (applyAttemptPath p.localState) = none) ∨
      (s.world.there.MarkedLate p.remoteState attemptId ∧
        s'.world.there.files (applyAttemptPath p.remoteState) = none)) :
    ∃ wave, (wave, attemptId) ∈ s'.world.begun ∧ s'.world.here.Described p.localState wave ∧
      s'.world.there.Described p.remoteState wave := by
  obtain ⟨stage, valid, before, after⟩ := common_stage reaches step
  have late : s.world.here.MarkedLate p.localState attemptId ∨
      s.world.there.MarkedLate p.remoteState attemptId := by
    rcases removed with ⟨late, -⟩ | ⟨late, -⟩
    · exact .inl late
    · exact .inr late
  obtain ⟨wave, rfl | rfl⟩ := late_marker_stage before.1 before.2 late
  · rcases removed with ⟨-, absent⟩ | ⟨-, absent⟩
    · exact absurd absent (Host.Committing.marked after.1).present
    · exact absurd absent (Host.Committing.marked after.2).present
  · exact ⟨wave, valid, Host.Saved.described after.1, Host.Saved.described after.2⟩

/-- The 153rd operation of the run removes the own marker. -/
theorem late_marker_removed_trial :
    ∃ wave, (wave, "attempt-wave-2-of-2") ∈ (Trial.after 153).world.begun ∧
      (Trial.after 153).world.here.Described Trial.profile.localState wave ∧
      (Trial.after 153).world.there.Described Trial.profile.remoteState wave :=
  late_marker_removed (Trial.reaches_after 152) (Trial.step_after 152 (by decide +kernel))
    (.inl ⟨⟨.finished, by decide +kernel, nofun⟩, by decide +kernel⟩)

/-! ## The end of a run -/

/-- A run that returns without an error leaves no marker on the own side, none on the other one
unless it was interrupted, and a checkpoint. -/
theorem returned_unmarked {outcome : SyncOutcome} (reaches : System.Reaches p start s)
    (returned : s.client = some (.ret (.ok outcome))) :
    s.world.here.files (applyAttemptPath p.localState) = none ∧
      (outcome ≠ .interrupted → s.world.there.files (applyAttemptPath p.remoteState) = none) ∧
      Agrees p start.world (s.world.here.files p.localState, s.world.here.tree)
        (s.world.there.files p.remoteState, s.world.there.tree) := by
  obtain ⟨⟨sides, H, I, begun, inStage, holds, ofHere, ofThere⟩, -⟩ :=
    reaches.follows.client _ returned
  have unmarked := ofHere _ holds.here
  exact ⟨unmarked, ofThere _ holds.server.host, unmarked_agrees reaches (.inl unmarked)⟩

theorem returned_unmarked_trial :
    (Trial.after 158).world.here.files (applyAttemptPath Trial.profile.localState) = none ∧
      (SyncOutcome.success ≠ .interrupted →
        (Trial.after 158).world.there.files (applyAttemptPath Trial.profile.remoteState) = none) ∧
      Agrees Trial.profile Trial.start.world
        ((Trial.after 158).world.here.files Trial.profile.localState,
          (Trial.after 158).world.here.tree)
        ((Trial.after 158).world.there.files Trial.profile.remoteState,
          (Trial.after 158).world.there.tree) :=
  returned_unmarked (Trial.reaches_after 158) (System.returned_of (by decide +kernel))

/-! ## A marker that is left -/

/-- After a run that left a marker on a side, no later run changes the files or the tree of
either host. -/
theorem marker_stops_runs (ended : s.client = none) (gone : s.world.server = .gone)
    (marked : s.world.here.files (applyAttemptPath p.localState) ≠ none ∨
      s.world.there.files (applyAttemptPath p.remoteState) ≠ none)
    (steps : Relation.ReflTransGen (System.Step p) s s') :
    s.world.here.SameDisk s'.world.here ∧ s.world.there.SameDisk s'.world.there := by
  have follows := (stuck_follows ended gone).run (stuck_restarts marked) steps
  obtain ⟨sides, safe⟩ := follows.stage
  exact safe.kept

/-- The client of the run crashes while its own tree is mutated, and another one starts. -/
theorem marker_stops_runs_trial :
    (Trial.after 71).world.here.SameDisk (Trial.rerun 71 5).world.here ∧
      (Trial.after 71).world.there.SameDisk (Trial.rerun 71 5).world.there :=
  marker_stops_runs (p := Trial.profile) (s := Trial.crashed 71) rfl rfl
    (.inl (by decide +kernel)) (Trial.steps_rerun 71 5)

/-! ## Interrupts -/

/-- The state file and the tree of a host stay as they are. -/
structure Host.SameCheckpoint (statePath : StatePath) (h h' : Host) : Prop where
  state : h'.files statePath = h.files statePath
  tree : h'.tree = h.tree

theorem Host.SameCheckpoint.trans {statePath : StatePath} {h h' h'' : Host}
    (first : h.SameCheckpoint statePath h') (second : h'.SameCheckpoint statePath h'') :
    h.SameCheckpoint statePath h'' :=
  ⟨second.state.trans first.state, second.tree.trans first.tree⟩

/-- One step after an interrupt that was accepted before a commit. -/
theorem cancelled_step (reaches : System.Reaches p start s)
    (cancelled : s.world.phase = .cancelRequested) (step : s.Continues p s') :
    s'.world.phase = .cancelRequested ∧
      s.world.here.SameCheckpoint p.localState s'.world.here ∧
      s.world.there.SameCheckpoint p.remoteState s'.world.there := by
  cases (reaches.follows.step wave_restarts step.1).2 with
  | starts ended client => exact absurd (step.2 ended) client
  | within within =>
    constructor
    · rcases within.phase with same | next
      · exact same.trans cancelled
      · exact absurd (cancelled ▸ next) InterruptPhase.Next.not_cancelled
    obtain ⟨sides, ⟨here, server, phase, -⟩, here', server', -, allowed⟩ := within.stage
    cases allowed with
    | @stage _ stage valid =>
      cases stage with
      | before hereCheckpoint thereCheckpoint =>
        have there : s.world.there.Untouched _ _ _ := server.host
        have there' : s'.world.there.Untouched _ _ _ := server'.host
        exact ⟨⟨(Host.Untouched.state here').trans (Host.Untouched.state here).symm,
            (Host.Untouched.tree here').trans (Host.Untouched.tree here).symm⟩,
          there'.state.trans there.state.symm, there'.tree.trans there.tree.symm⟩
      | committing => exact absurd (.inr cancelled) phase
      | saved => exact absurd (.inr cancelled) phase
    | frozen =>
      have sameHere : s'.world.here = s.world.here := here'.trans here.symm
      have sameThere : s'.world.there = s.world.there := server'.host.trans server.host.symm
      rw [sameHere, sameThere]
      exact ⟨⟨rfl, rfl⟩, rfl, rfl⟩

/-- An interrupt that is accepted before a commit stops the run there: neither tree and neither
snapshot changes any more, and a run that returns says that it was interrupted. -/
theorem cancelled_run (reaches : System.Reaches p start s)
    (cancelled : s.world.phase = .cancelRequested)
    (steps : Relation.ReflTransGen (System.Continues p) s s') :
    s.world.here.SameCheckpoint p.localState s'.world.here ∧
      s.world.there.SameCheckpoint p.remoteState s'.world.there ∧
      ∀ outcome, s'.client = some (.ret (.ok outcome)) → outcome = .interrupted := by
  have still : s'.world.phase = .cancelRequested ∧
      s.world.here.SameCheckpoint p.localState s'.world.here ∧
      s.world.there.SameCheckpoint p.remoteState s'.world.there := by
    induction steps with
    | refl => exact ⟨cancelled, ⟨rfl, rfl⟩, rfl, rfl⟩
    | tail steps step ih =>
      obtain ⟨phase, here, there⟩ := ih
      obtain ⟨phase', here', there'⟩ := cancelled_step (reaches.continues steps) phase step
      exact ⟨phase', here.trans here', there.trans there'⟩
  refine ⟨still.2.1, still.2.2, fun outcome returned => ?_⟩
  rcases ((reaches.continues steps).follows.client _ returned).2 with interrupted | late
  · exact interrupted
  · exact absurd (.inr still.1) late

/-- The run is interrupted while it streams. -/
theorem cancelled_run_trial :
    (Trial.interrupted 45 .cancelRequested).world.here.SameCheckpoint Trial.profile.localState
        (System.advance Trial.scans 40 (Trial.interrupted 45 .cancelRequested)).world.here ∧
      (Trial.interrupted 45 .cancelRequested).world.there.SameCheckpoint Trial.profile.remoteState
        (System.advance Trial.scans 40 (Trial.interrupted 45 .cancelRequested)).world.there ∧
      ∀ outcome, (System.advance Trial.scans 40 (Trial.interrupted 45 .cancelRequested)).client =
        some (.ret (.ok outcome)) → outcome = .interrupted :=
  cancelled_run (Trial.reaches_interrupted .cancel (by decide +kernel)) rfl
    (System.advance_steps 40 _)

/-- An interrupt that is deferred to the end of a commit keeps the run from another wave. -/
theorem deferred_run (reaches : System.Reaches p start s)
    (deferred : s.world.phase = .committedInterrupted)
    (steps : Relation.ReflTransGen (System.Continues p) s s') :
    s'.world.begun = s.world.begun ∧ DeferredPhase s'.world.phase := by
  induction steps with
  | refl => exact ⟨rfl, .inl deferred⟩
  | tail steps step ih =>
    obtain ⟨begun, phase⟩ := ih
    cases ((reaches.continues steps).follows.step wave_restarts step.1).2 with
    | starts ended client => exact absurd (step.2 ended) client
    | within within =>
      constructor
      · rcases within.begun with same | early
        · exact same.trans begun
        · exact absurd early phase.late
      · rcases within.phase with same | next
        · exact same ▸ phase
        · exact phase.next next

/-- The run is interrupted while it commits its first wave, and never begins the second one. -/
theorem deferred_run_trial :
    (Trial.interrupted 71 .committedInterrupted).world.begun.map Prod.snd =
        ["attempt-wave-1-of-2"] ∧
      (System.advance Trial.scans 40 (Trial.interrupted 71 .committedInterrupted)).world.begun =
        (Trial.interrupted 71 .committedInterrupted).world.begun ∧
      DeferredPhase
        (System.advance Trial.scans 40 (Trial.interrupted 71 .committedInterrupted)).world.phase :=
  ⟨by decide +kernel,
    deferred_run (Trial.reaches_interrupted .committed (by decide +kernel)) rfl
      (System.advance_steps 40 _)⟩

end Protocol

end Duet

import Duet.Wave.RunCalls

/-!
# What a synchronization never leaves

The invariant of the system: it is in some stage of a policy, and what is left of the client
goes on within the stages of the policy (`System.Follows`). A client that starts has to go
within them too (`Restarts`). The policies are the one of whole waves, which starts without a
marker, and the one of a system with a marker, which nothing changes any more.
-/

namespace Duet

open Lib Marker

section Follows

variable {p : Profile} {policy : Policy} {s s' : System} {w w' : World}

theorem SomeStage.moves (some : SomeStage policy w) (moves : w.Moves w') : SomeStage policy w' := by
  obtain ⟨sides, safe⟩ := some
  exact ⟨sides, safe.moves moves⟩

theorem RestIn.moves {M M' : Host → Prop} (rest : RestIn policy M M' w) (moves : w.Moves w') :
    RestIn policy M M' w' := by
  obtain ⟨sides, H, I, begun, inStage, holds, ofHere, ofThere⟩ := rest
  exact ⟨sides, H, I, begun, inStage, holds.moves anyPhase_steady moves, ofHere, ofThere⟩

/-- What a run ends with, whatever the server still does. -/
theorem ends_stable (result : Except Report SyncOutcome) :
    (clientContract policy).Stable (Outcome (Returned p policy) (SomeStage policy) result) := by
  intro w w' related ends
  induction related with
  | refl => exact ends
  | tail _ moves ih =>
    cases result with
    | ok outcome =>
      refine ⟨ih.1.moves moves, ?_⟩
      rcases ih.2 with interrupted | late
      · exact .inl interrupted
      · rcases moves.phase with same | interrupted
        · exact .inr (same ▸ late)
        · exact .inr (latePhase_steady interrupted late)
    | error error => exact SomeStage.moves ih moves

/-- The system is in a stage, and its client goes on within the stages. -/
structure System.Follows (p : Profile) (policy : Policy) (s : System) : Prop where
  stage : SomeStage policy s.world
  client : ∀ rest, s.client = some rest →
    (clientContract policy).wp rest (Outcome (Returned p policy) (SomeStage policy)) s.world

/-- A run that starts finds both hosts in a stage, and goes on within the stages. -/
structure Restarts (p : Profile) (policy : Policy) : Prop where
  frozen : ∀ sides w, Safe policy sides w →
    policy w.begun (frozen w.here.restarted w.there.restarted)
  continues : ∀ sides w, Safe policy sides w →
    w.here.files (applyAttemptPath p.localState) = none →
    w.there.files (applyAttemptPath p.remoteState) = none → ∀ plan contextL contextR w',
    Holds (· = w.here.restarted) (· = w.there.restarted) (fun server _ => server.Calm p.remoteState)
      Unserved EarlyPhase w.begun w' →
    (clientContract policy).wp (resolveAndApply p.context plan contextL contextR).run
      (Outcome (Finished p policy) (SomeStage policy)) w'

/-- What a step does: it stays within a stage, or a run starts. -/
inductive System.Steps (policy : Policy) (s s' : System) : Prop where
  | within (within : Within policy s.world s'.world)
  | starts (ended : s.client = none) (client : s'.client ≠ none)
      (here : s'.world.here = s.world.here.restarted)
      (there : s'.world.there = s.world.there.restarted) (begun : s'.world.begun = s.world.begun)

theorem World.Moves.within (safe : SomeStage policy w) (moves : w.Moves w') :
    Within policy w w' := by
  obtain ⟨sides, safe⟩ := safe
  refine ⟨⟨sides, safe, safe.moves moves⟩, ?_, .inl moves.begun⟩
  rcases moves.phase with same | interrupted
  · exact .inl same
  · exact .inr (.interrupted interrupted)

theorem Safe.disconnected {sides : Sides} (safe : Safe policy sides w) :
    Safe policy sides { w with server := w.server.disconnected } :=
  { safe with server := safe.server.disconnected }

/-- The step lemma. -/
theorem System.Follows.step (restarts : Restarts p policy) (follows : s.Follows p policy)
    (step : s.Step p s') : s'.Follows p policy ∧ s.Steps policy s' := by
  cases step with
  | client run =>
    obtain ⟨within, rest⟩ := Contract.wp_step clientContract_lawful (follows.client _ rfl) run
    obtain ⟨sides, -, safe⟩ := within.stage
    exact ⟨⟨⟨sides, safe⟩, fun _ same => Option.some.inj same ▸ rest⟩, .within within⟩
  | moves moves =>
    exact ⟨⟨follows.stage.moves moves, fun rest same =>
      Contract.wp_stable clientContract_lawful ends_stable (.single moves)
        (follows.client rest same)⟩, .within (moves.within follows.stage)⟩
  | ends w client =>
    obtain ⟨sides, safe⟩ := follows.stage
    exact ⟨⟨⟨sides, safe.disconnected⟩, nofun⟩,
      .within ⟨⟨sides, safe, safe.disconnected⟩, .inl rfl, .inl rfl⟩⟩
  | starts w gone plan =>
    obtain ⟨sides, safe⟩ := follows.stage
    have allowed := restarts.frozen sides w safe
    have untried : Untried w.here.restarted w.there.restarted p.serverDir w.begun
        { w with
          here := w.here.restarted
          there := w.there.restarted
          server := .idle (.new p.serverDir)
          phase := .preCommit } := ⟨rfl, ⟨rfl, rfl, rfl⟩, .inl rfl, rfl⟩
    refine ⟨⟨untried.some allowed, fun rest same => ?_⟩, .starts rfl nofun rfl rfl rfl⟩
    cases same
    exact sync_call allowed plan (fun here there contextL contextR w' =>
      restarts.continues sides w safe here there plan contextL contextR w') untried

/-- The run lemma. -/
theorem System.Follows.run (restarts : Restarts p policy) (follows : s.Follows p policy)
    (steps : Relation.ReflTransGen (Step p) s s') : s'.Follows p policy := by
  induction steps with
  | refl => exact follows
  | tail _ step ih => exact (ih.step restarts step).1

end Follows

/-! ## Whole waves -/

section Restarted

variable {h : Host} {statePath : StatePath} {file : Option HostFile} {tree : TargetTree}
  {ids : String → Prop} {phases : ApplyAttemptPhase → Prop} {wave : Nat} {attemptId : String}

theorem Host.MarkerIn.restarted (holds : h.MarkerIn statePath ids phases) :
    h.restarted.MarkerIn statePath ids phases :=
  ⟨holds.found, nofun⟩

theorem Host.Untouched.restarted (holds : h.Untouched statePath file tree) :
    h.restarted.Untouched statePath file tree :=
  ⟨holds.state, holds.tree, holds.marker.restarted⟩

theorem Host.Committing.restarted (holds : h.Committing statePath wave attemptId) :
    h.restarted.Committing statePath wave attemptId :=
  ⟨⟨holds.ready.current, holds.ready.prepared, holds.ready.validated⟩,
    holds.marked.congr rfl, rfl⟩

theorem Host.Saved.restarted (holds : h.Saved statePath wave attemptId) :
    h.restarted.Saved statePath wave attemptId :=
  ⟨⟨holds.ready.current, holds.ready.prepared, holds.ready.validated⟩, holds.described,
    holds.marker.restarted⟩

end Restarted

section Waves

variable {p : Profile} {start w : World} {sides : Sides} {begun : List (Nat × String)}
  {h t : Host}

/-- Two hosts are in a stage that synchronizations go through. -/
def InSomeStage (p : Profile) (start : World) (begun : List (Nat × String)) (h t : Host) : Prop :=
  ∃ stage : WaveStage, stage.Valid p start begun ∧ (stage.sides p).here h ∧ (stage.sides p).there t

theorem Safe.inSomeStage (safe : Safe (wavePolicy p start) sides w) :
    InSomeStage p start w.begun w.here w.there := by
  obtain ⟨here, server, -, allowed⟩ := safe
  cases allowed with
  | stage valid => exact ⟨_, valid, here, server.host⟩
  | frozen valid ofHere ofThere =>
    obtain rfl : w.here = _ := here
    obtain rfl : w.there = _ := server.host
    exact ⟨_, valid, ofHere, ofThere⟩

theorem WaveStage.here_restarted (stage : WaveStage) (ofHere : (stage.sides p).here h) :
    (stage.sides p).here h.restarted := by
  cases stage with
  | before => exact Host.Untouched.restarted ofHere
  | committing => exact Host.Committing.restarted ofHere
  | saved => exact Host.Saved.restarted ofHere

theorem WaveStage.there_restarted (stage : WaveStage) (ofThere : (stage.sides p).there t) :
    (stage.sides p).there t.restarted := by
  cases stage with
  | before => exact Host.Untouched.restarted ofThere
  | committing => exact Host.Committing.restarted ofThere
  | saved => exact Host.Saved.restarted ofThere

theorem InSomeStage.restarted (inStage : InSomeStage p start begun h t) :
    InSomeStage p start begun h.restarted t.restarted := by
  obtain ⟨stage, valid, ofHere, ofThere⟩ := inStage
  exact ⟨stage, valid, stage.here_restarted ofHere, stage.there_restarted ofThere⟩

/-- If a side has no marker, the two sides have a checkpoint. -/
theorem InSomeStage.agrees (inStage : InSomeStage p start begun h t)
    (unmarked : h.files (applyAttemptPath p.localState) = none ∨
      t.files (applyAttemptPath p.remoteState) = none) :
    Agrees p start (h.files p.localState, h.tree) (t.files p.remoteState, t.tree) := by
  obtain ⟨stage, valid, ofHere, ofThere⟩ := inStage
  cases stage with
  | before here there =>
    obtain ⟨hereState, hereTree, -⟩ := ofHere
    obtain ⟨thereState, thereTree, -⟩ := ofThere
    rw [hereState, hereTree, thereState, thereTree]
    exact valid
  | committing wave attemptId =>
    rcases unmarked with absent | absent
    · exact absurd absent (Host.Committing.marked ofHere).present
    · exact absurd absent (Host.Committing.marked ofThere).present
  | saved wave attemptId =>
    exact agrees_of_described (Host.Saved.described ofHere) (Host.Saved.described ofThere)

/-- A client that knows both hosts, which are clean, may begin a wave. -/
theorem waveStart_of_clean {here there : Option HostFile × TargetTree}
    (ofHere : h.Clean p.localState here) (ofThere : t.Clean p.remoteState there)
    (holds : Holds (· = h) (· = t) (fun server _ => server.Calm p.remoteState) Unserved EarlyPhase
      begun w) : WaveStart p here there begun w := by
  refine Holds.weaken holds (fun g same => ?_) (fun g same => ?_) (fun _ _ _ idle => idle)
    fun _ early => early
  · rw [same]
    exact ofHere
  · rw [same]
    exact ofThere

theorem wave_restarts : Restarts p (wavePolicy p start) where
  frozen _ _ safe := by
    obtain ⟨stage, valid, ofHere, ofThere⟩ := safe.inSomeStage.restarted
    exact .frozen valid ofHere ofThere
  continues _ w safe here there plan contextL contextR w' holds := by
    have agrees := safe.inSomeStage.restarted.agrees (.inl here)
    have hereClean := Host.clean_of_unmarked (h := w.here.restarted) here rfl
    have thereClean := Host.clean_of_unmarked (h := w.there.restarted) there rfl
    have started := waveStart_of_clean hereClean thereClean holds
    exact wp_outcome (resolveAndApply_call agrees plan contextL contextR started)
      (fun outcome _ rest => rest.finished outcome) fun _ failed => failed

theorem initial_follows {s : System} (initial : s.Initial p) :
    s.Follows p (wavePolicy p s.world) := by
  refine ⟨⟨(WaveStage.before _ _).sides p, ?_, ?_, trivial, .stage .start⟩, fun rest same => ?_⟩
  · exact (Host.clean_of_unmarked initial.hereMarker initial.hereAside).toUntouched
  · rw [initial.server]
    exact (Host.clean_of_unmarked initial.thereMarker initial.thereAside).toUntouched
  · cases initial.client.symm.trans same

theorem System.Reaches.follows {start s : System} (reaches : Reaches p start s) :
    s.Follows p (wavePolicy p start.world) := by
  induction reaches with
  | start initial => exact initial_follows initial
  | step _ step ih => exact (ih.step wave_restarts step).1

end Waves

/-! ## Where a marker is left -/

section Stuck

variable {p : Profile} {h t : Host} {s : System}

/-- Nothing is done any more to the files and the tree of a host. -/
structure Host.SameDisk (h h' : Host) : Prop where
  files : h'.files = h.files
  tree : h'.tree = h.tree

/-- Both hosts stay as they are, runs that find a marker aside. -/
def stuckPolicy (h t : Host) : Policy :=
  fun _ sides => ∃ h' t', sides = frozen h' t' ∧ h.SameDisk h' ∧ t.SameDisk t'

theorem Safe.kept {sides : Sides} {w : World} (safe : Safe (stuckPolicy h t) sides w) :
    h.SameDisk w.here ∧ t.SameDisk w.there := by
  obtain ⟨here, server, -, h', t', rfl, keptHere, keptThere⟩ := safe
  obtain rfl : w.here = h' := here
  obtain rfl : w.there = t' := server.host
  exact ⟨keptHere, keptThere⟩

theorem stuck_restarts (marked : h.files (applyAttemptPath p.localState) ≠ none ∨
    t.files (applyAttemptPath p.remoteState) ≠ none) : Restarts p (stuckPolicy h t) where
  frozen _ _ safe :=
    ⟨_, _, rfl, ⟨safe.kept.1.files, safe.kept.1.tree⟩, safe.kept.2.files, safe.kept.2.tree⟩
  continues _ w safe here there := by
    obtain ⟨keptHere, keptThere⟩ := safe.kept
    rw [keptHere.files] at here
    rw [keptThere.files] at there
    rcases marked with present | present
    · exact absurd here present
    · exact absurd there present

theorem stuck_follows (ended : s.client = none) (gone : s.world.server = .gone) :
    s.Follows p (stuckPolicy s.world.here s.world.there) := by
  refine ⟨⟨frozen s.world.here s.world.there, rfl, ?_, trivial, _, _, rfl, ⟨rfl, rfl⟩, rfl, rfl⟩,
    fun rest same => ?_⟩
  · rw [gone]
    exact rfl
  · cases ended.symm.trans same

end Stuck

end Duet

import Duet.Rpc.Bystander

/-!
# The calls of the staged apply

For each call of the staged apply, what it does to the session when it succeeds and what it
leaves behind when it reports an error.
-/

namespace Duet

open Lib Marker

/-- The manifest that describes the target tree, when no wave is mutating it. -/
def TargetTree.manifest : TargetTree → Option Entries
  | .settled _ entries => some entries
  | .mutating _ => none

/-- The attempt that a staged apply is about, with its state path. An aborted attempt is
over. -/
def StagedApplyState.attempt : StagedApplyState → Option (String × StatePath)
  | .preparing attemptId statePath _ | .prepared attemptId statePath _
  | .committing attemptId statePath | .committed attemptId statePath _ _ =>
    some (attemptId, statePath)
  | .aborted _ _ => none

/-- The attempt of the session that has begun and is not over. -/
def DuetServerImpl.attempt (self : DuetServerImpl) : Option (String × StatePath) :=
  self.stagedApply.bind StagedApplyState.attempt

/-! ## Rules -/

section Rules

variable {α β : Type} {h : Host} {server : DuetServerImpl}
  {Q : Except Report β × DuetServerImpl → Host → Prop}

theorem wp_true {p : Program hostEffects α} : alone.wp p (fun _ _ => True) h := by
  induction p generalizing h with
  | ret value => trivial
  | call op next ih => exact fun _ _ reply u _ => ⟨trivial, ih reply⟩

/-- A handler that first calls the host and goes on when the call succeeds. -/
theorem wp_call_bind {m : HostM α} {f : α → Handler β} {P : Except Report α → Host → Prop}
    (holds : alone.wp m.run P h) (failed : ∀ error h', P (.error error) h' → Q (.error error, server) h')
    (continues : ∀ value h', P (.ok value) h' → alone.wp ((f value).run server) Q h') :
    alone.wp ((Handler.call m >>= f).run server) Q h := by
  rw [Handler.wp_run_bind, Handler.wp_run_call]
  refine Contract.wp_mono holds fun result h' outcome => ?_
  cases result with
  | ok value => exact continues value h' outcome
  | error error => exact failed error h' outcome

theorem wp_check_bind {what : HostCheck} {f : Unit → Handler β}
    (failed : ∀ error h', h.Kept h' → Q (.error error, server) h')
    (continues : ∀ h', h.Kept h' → alone.wp ((f ()).run server) Q h') :
    alone.wp ((Handler.call (host (.check what)) >>= f).run server) Q h :=
  wp_call_bind (wp_of_careful (check_uses what) h) failed
    fun _ => continues

/-- A handler that first looks at the session. -/
theorem wp_session_bind {f : DuetServerImpl → Handler β}
    (continues : alone.wp ((f server).run server) Q h) :
    alone.wp ((Handler.session >>= f).run server) Q h :=
  Handler.wp_run_bind.mpr continues

theorem wp_initializedRemoteState_bind {f : StatePath → Handler β}
    (failed : ∀ error, Q (.error error, server) h)
    (continues : alone.wp ((f server.remoteState).run server) Q h) :
    alone.wp ((initializedRemoteState >>= f).run server) Q h := by
  have found : alone.wp (initializedRemoteState.run server) (fun out h' => h' = h ∧
      out.2 = server ∧ ∀ path, out.1 = .ok path → path = server.remoteState) h := by
    refine wp_session_bind ?_
    split_ifs
    · exact ⟨rfl, rfl, fun _ same => nomatch same⟩
    · exact ⟨rfl, rfl, fun _ same => nomatch same⟩
    · exact ⟨rfl, rfl, fun _ same => (Except.ok.inj same).symm⟩
  refine Handler.wp_run_bind.mpr (Contract.wp_mono found fun out h' outcome => ?_)
  rcases out with ⟨error | path, self⟩
  · obtain ⟨rfl, rfl, -⟩ := outcome
    exact failed error
  · obtain ⟨rfl, rfl, same⟩ := outcome
    rw [same path rfl]
    exact continues

theorem wp_acceptedActions_bind {f : Unit → Handler β}
    (failed : ∀ error, Q (.error error, server) h)
    (continues : alone.wp ((f ()).run server) Q h) :
    alone.wp ((acceptedActions >>= f).run server) Q h := by
  have found : alone.wp (acceptedActions.run server) (fun out h' => h' = h ∧ out.2 = server) h := by
    refine wp_session_bind ?_
    split_ifs
    · exact ⟨rfl, rfl⟩
    · exact ⟨rfl, rfl⟩
  refine Handler.wp_run_bind.mpr (Contract.wp_mono found fun out h' outcome => ?_)
  rcases out with ⟨error | accepted, self⟩
  · obtain ⟨rfl, rfl⟩ := outcome
    exact failed error
  · obtain ⟨rfl, rfl⟩ := outcome
    exact continues

/-- A handler that first changes the session. -/
theorem wp_update_bind {f : DuetServerImpl → DuetServerImpl} {rest : Unit → Handler β}
    (continues : alone.wp ((rest ()).run (f server)) Q h) :
    alone.wp ((Handler.update f >>= rest).run server) Q h :=
  Handler.wp_run_bind.mpr continues

end Rules

/-! ## Begin and prepare -/

/-- A staged attempt that could be started has its marker on disk. -/
theorem startStagedApplyAttempt_marked (side : String) (statePath : StatePath) (base : Path)
    (actions : Actions) (attemptId : String) (h : Host) :
    alone.wp (startStagedApplyAttempt side statePath base actions attemptId).run
      (fun result h' => result = .ok () → h'.Marked statePath attemptId) h := by
  unfold startStagedApplyAttempt
  split_ifs
  · exact fun same => nomatch same
  · exact fun same => nomatch same
  · exact fun same => nomatch same
  · exact fun same => nomatch same
  · rw [Contract.wp_run_bind]
    refine Contract.wp_mono wp_true fun checked h₁ _ => ?_
    cases checked with
    | error error => exact fun same => nomatch same
    | ok _ =>
      rw [wp_alone_host]
      intro reply h₂ run created
      subst created
      rcases run with ⟨-, rfl⟩ | ⟨present, rfl⟩
      · exact .inl ⟨_, .preparing, [], by simp; rfl⟩
      · exact .inl ⟨_, .preparing, [], present⟩

theorem beginStagedApply_spec (attemptId : String) (s : Session) :
    alone.wp ((beginStagedApply attemptId).run s.server)
      (fun out h' => match out.1 with
        | .ok _ => (∃ stream, out.2.stagedApply =
            some (.preparing attemptId s.server.remoteState stream)) ∧
            h'.Marked s.server.remoteState attemptId
        | .error _ => SameBaseline s ⟨out.2, h'⟩) s.host := by
  unfold beginStagedApply
  split_ifs
  · exact .refl s
  refine wp_initializedRemoteState_bind (fun _ => .refl s)
    (wp_acceptedActions_bind (fun _ => .refl s) (wp_session_bind ?_))
  have started : alone.wp (Handler.run (do
      Handler.call (host (.check (.validateActions s.server.actions)))
      Handler.call (host (.check (.preflightApply s.server.base s.server.actions)))
      Handler.call (startStagedApplyAttempt "remote" s.server.remoteState s.server.base
        s.server.actions attemptId)
      let id ← insertStream (.staged ⟨s.server.base, s.server.actions, s.server.allOld,
        some s.server.remoteState, some attemptId, false⟩)
      setStaged (some (.preparing attemptId s.server.remoteState (some id)))
      return id) s.server)
      (fun out h' => match out.1 with
        | .ok _ => (∃ stream, out.2.stagedApply =
            some (.preparing attemptId s.server.remoteState stream)) ∧
            h'.Marked s.server.remoteState attemptId
        | .error _ => SameBaseline s ⟨out.2, h'⟩) s.host := by
    refine wp_check_bind (fun _ _ kept => ⟨⟨rfl, kept⟩, rfl⟩) fun h₁ kept₁ => ?_
    refine wp_check_bind (fun _ _ kept => ⟨⟨rfl, kept₁.trans kept⟩, rfl⟩) fun h₂ kept₂ => ?_
    have marked := Contract.wp_and
      (wp_of_careful (startStagedApplyAttempt_uses "remote" s.server.remoteState s.server.base
        s.server.actions attemptId) h₂)
      (startStagedApplyAttempt_marked "remote" s.server.remoteState s.server.base
        s.server.actions attemptId h₂)
    exact wp_call_bind marked
      (fun _ _ outcome => ⟨⟨rfl, (kept₁.trans kept₂).trans outcome.1⟩, rfl⟩)
      fun _ h₃ outcome => ⟨⟨_, rfl⟩, outcome.2 rfl⟩
  split
  · exact started
  · exact started
  · exact .refl s

/-- What `finish_staged_prepare` may do with the staged apply. -/
inductive Prepares : Option StagedApplyState → Option StagedApplyState → Prop where
  | same (state : Option StagedApplyState) : Prepares state state
  | failed (attemptId : String) (statePath : StatePath) (stream : Option Nat) :
      Prepares (some (.preparing attemptId statePath stream))
        (some (.preparing attemptId statePath none))
  | prepared (attemptId : String) (statePath : StatePath) (stream : Option Nat)
      (prepared : PreparedApply) :
      Prepares (some (.preparing attemptId statePath stream))
        (some (.prepared attemptId statePath prepared))

theorem finishStagedPrepareInner_spec (streamId : Nat) (attemptId : String) (s : Session) :
    alone.wp ((finishStagedPrepareInner streamId attemptId).run s.server)
      (fun out h' => Prepares s.server.stagedApply out.2.stagedApply ∧
        out.2.allOld = s.server.allOld ∧ s.host.Kept h') s.host := by
  refine wp_session_bind ?_
  have unchanged : Prepares s.server.stagedApply s.server.stagedApply ∧
      s.server.allOld = s.server.allOld ∧ s.host.Kept s.host := ⟨.same _, rfl, .refl _⟩
  split
  next activeId statePath activeStream staged =>
    split_ifs with wrong
    · exact unchanged
    · obtain ⟨same, -⟩ : activeId = attemptId ∧ activeStream = some streamId := by
        simpa [not_or] using wrong
      subst same
      split
      · exact unchanged
      · exact unchanged
      next applier _ =>
        refine wp_update_bind (wp_update_bind ?_)
        rw [staged]
        exact wp_call_bind (wp_of_careful applier.finishPreparation_uses s.host)
          (fun _ _ kept => ⟨.failed activeId statePath activeStream, rfl, kept⟩)
          fun prepared _ kept => ⟨.prepared activeId statePath activeStream prepared, rfl, kept⟩
  · exact unchanged

theorem validateStagedApply_quiet (attemptId : String) :
    (validateStagedApply attemptId).Within SameBaseline := by
  refine quiet_bind quiet_session fun self => ?_
  split
  · split_ifs
    · exact quiet_fail
    · exact quiet_careful (PreparedApply.validateCommit_uses _)
  · exact quiet_fail

/-! ## Commit -/

theorem wp_tree {α : Type} {m : HostM α} (uses : m.Uses HostOp.SparesTree) (h : Host) :
    alone.wp m.run (fun _ h' => h'.tree = h.tree) h :=
  Contract.wp_of_uses (P := fun h' : Host => h'.tree = h.tree) uses alone_stable
    (fun _ _ _ _ spares run same => ⟨trivial, (Host.exec_tree run spares).trans same⟩) rfl

/-- The rest of a program after calls that may do anything. -/
theorem wp_run_bind_true {α β : Type} {m : HostM α} {f : α → HostM β}
    {Q : Except Report β → Host → Prop} {h : Host} (failed : ∀ error h', Q (.error error) h')
    (continues : ∀ value h', alone.wp (f value).run Q h') : alone.wp (m >>= f).run Q h := by
  refine Contract.wp_run_bind.mpr (Contract.wp_mono wp_true fun result h' _ => ?_)
  cases result with
  | ok value => exact continues value h'
  | error error => exact failed error h'

/-- A commit returns the manifest that describes the target tree it leaves. -/
theorem commitProfiled_manifest (prepared : PreparedApply) (h : Host) :
    alone.wp prepared.commitProfiled.run
      (fun result h' => ∀ entries, result = .ok entries → h'.tree.manifest = some entries) h := by
  refine wp_run_bind_true (fun _ _ _ same => nomatch same) fun _ _ => ?_
  refine wp_run_bind_true (fun _ _ _ same => nomatch same) fun _ _ => ?_
  refine wp_run_bind_true (fun _ _ _ same => nomatch same) fun _ _ => ?_
  refine wp_run_bind_true (fun _ _ _ same => nomatch same) fun _ _ => ?_
  refine wp_run_bind_true (fun _ _ _ same => nomatch same) fun results h₁ => ?_
  split
  · exact fun _ same => nomatch same
  next entries merged =>
    rw [Contract.wp_run_bind, wp_alone_host]
    intro reply h₂ run
    cases reply with
    | error error => exact fun _ same => nomatch same
    | ok _ =>
      have settled : h₂.tree = .settled h₁.wave entries := by
        rw [show h₂ = h₁.settle entries from run]
        rfl
      have rest : HostM.Uses HostOp.SparesTree (do
          host (.check .stagingCleanup)
          prepared.transition .committing .committed) := by
        refine .bind (.op trivial) fun _ => ?_
        unfold PreparedApply.transition
        split
        · exact transitionStagedApplyAttempt_uses_of trivial trivial
        · exact .pure
      have tail := Contract.wp_run_bind.mp (wp_tree rest h₂)
      refine Contract.wp_run_bind.mpr (Contract.wp_mono tail fun checked h₃ outcome => ?_)
      cases checked with
      | error error => exact fun _ same => nomatch same
      | ok _ =>
        refine Contract.wp_run_bind.mpr (Contract.wp_mono outcome fun moved h₄ same => ?_)
        cases moved with
        | error error => exact fun _ same => nomatch same
        | ok _ =>
          intro found equal
          cases equal
          rw [same, settled]
          rfl

/-- The outcome of a commit: the attempt is committed with the manifest of the tree as the
new baseline, or it is stuck in the committing state. -/
theorem commitStagedApplyInner_spec (attemptId : String) (s : Session) :
    alone.wp ((commitStagedApplyInner attemptId).run s.server)
      (fun out h' => s.host.Kept h' ∧ match out.1 with
        | .ok _ => ∃ statePath prepared,
          s.server.stagedApply = some (.prepared attemptId statePath prepared) ∧
          out.2.stagedApply = some (.committed attemptId statePath false false) ∧
          h'.tree.manifest = some out.2.allOld
        | .error _ => out.2.allOld = s.server.allOld ∧
          (out.2.stagedApply = s.server.stagedApply ∨
            ∃ statePath prepared,
              s.server.stagedApply = some (.prepared attemptId statePath prepared) ∧
              out.2.stagedApply = some (.committing attemptId statePath))) s.host := by
  refine wp_session_bind ?_
  split
  · exact ⟨.refl _, rfl, .inl rfl⟩
  next activeId statePath prepared staged =>
    split_ifs with wrong
    · exact ⟨.refl _, rfl, .inl rfl⟩
    · obtain rfl : activeId = attemptId := not_not.mp wrong
      refine wp_update_bind ?_
      have committed := Contract.wp_and (wp_of_careful prepared.commitProfiled_uses s.host)
        (commitProfiled_manifest prepared s.host)
      exact wp_call_bind committed
        (fun _ _ outcome => ⟨outcome.1, rfl, .inr ⟨statePath, prepared, staged, rfl⟩⟩)
        fun entries _ outcome => ⟨outcome.1, statePath, prepared, staged, rfl, outcome.2 _ rfl⟩
  · exact ⟨.refl _, rfl, .inl rfl⟩

/-! ## State save and completion -/

/-- A state save leaves every file but the state file as it was. -/
theorem saveEntriesAs_spec (statePath : StatePath) (entries : Entries) (format : SnapshotFormat)
    (h : Host) :
    alone.wp (saveEntriesAs statePath entries format).run
      (fun result h' => (∀ path, path ≠ statePath → h'.files path = h.files path) ∧
        (result = .ok () → h'.files statePath = some (.snapshot entries format))) h := by
  have uses : (saveEntriesAs statePath entries format).Uses (HostOp.About (· = statePath)) :=
    @saveEntriesAs_uses (· = statePath) statePath rfl entries format
  refine Contract.wp_and (wp_of_about uses h) ?_
  refine wp_run_bind_true (fun _ _ same => nomatch same) fun _ h₁ => ?_
  rw [wp_alone_host]
  intro reply h₂ run saved
  subst saved
  rw [show h₂ = h₁.write statePath (.snapshot entries format) from run]
  simp

/-- The marker of an attempt is another file than its snapshot. -/
theorem Host.Marked.of_saved {h h' : Host} {statePath : StatePath} {attemptId : String}
    (marked : h.Marked statePath attemptId)
    (others : ∀ path, path ≠ statePath → h'.files path = h.files path) :
    h'.Marked statePath attemptId :=
  marked.congr (others _ (applyAttemptPath_ne statePath).symm)

/-- What a state save of a committed attempt leaves. -/
structure SavedState (s s' : Session) (attemptId : String) (statePath : StatePath)
    (saved : Bool) (result : Except Report Unit) : Prop where
  allOld : s'.server.allOld = s.server.allOld
  marked : ∀ id, s.host.Marked statePath id → s'.host.Marked statePath id
  stays : saved = true → s'.host = s.host ∧ s'.server = s.server
  failed : ∀ error, result = .error error → saved = false ∧
    ∃ started, s'.server.stagedApply = some (.committed attemptId statePath started false)
  written : result = .ok () → saved = false →
    (∃ started, s'.server.stagedApply = some (.committed attemptId statePath started true)) ∧
    ∃ format, s'.host.files statePath = some (.snapshot s.server.allOld format)

theorem saveStagedStatePendingInner_spec (attemptId : String) (strong : Bool) (s : Session) :
    alone.wp ((saveStagedStatePendingInner attemptId strong).run s.server)
      (fun out h' => (out.2 = s.server ∧ h' = s.host ∧ ∃ error, out.1 = .error error) ∨
        ∃ statePath started saved,
          s.server.stagedApply = some (.committed attemptId statePath started saved) ∧
          SavedState s ⟨out.2, h'⟩ attemptId statePath saved out.1) s.host := by
  refine wp_session_bind ?_
  split
  next activeId statePath started saved staged =>
    split_ifs with wrong finished
    · exact .inl ⟨rfl, rfl, _, rfl⟩
    all_goals obtain rfl : activeId = attemptId := not_not.mp wrong
    · refine .inr ⟨statePath, started, saved, staged, ⟨rfl, fun _ marked => marked,
        fun _ => ⟨rfl, rfl⟩, fun _ same => (nomatch same), fun _ unsaved => ?_⟩⟩
      rw [finished] at unsaved
      cases unsaved
    · obtain rfl : saved = false := Bool.eq_false_iff.mpr finished
      have saves : ∀ (server : DuetServerImpl) (h : Host) (started' : Bool),
          server.allOld = s.server.allOld →
          server.stagedApply = some (.committed activeId statePath started' false) →
          (∀ id, s.host.Marked statePath id → h.Marked statePath id) →
          alone.wp (Handler.run (do
            Handler.call (saveEntriesAs statePath s.server.allOld (snapshotFormat strong))
            setStaged (some (.committed activeId statePath true true))) server)
          (fun out h' => SavedState s ⟨out.2, h'⟩ activeId statePath false out.1) h := by
        intro server h started' baseline state marked
        refine wp_call_bind (saveEntriesAs_spec statePath s.server.allOld _ h)
          (fun error h' outcome => ?_) fun _ h' outcome => ?_
        · exact ⟨baseline, fun id before => (marked id before).of_saved outcome.1,
            fun same => (nomatch same), fun _ _ => ⟨rfl, started', state⟩,
            fun same => (nomatch same)⟩
        · exact ⟨baseline, fun id before => (marked id before).of_saved outcome.1,
            fun same => (nomatch same), fun _ same => (nomatch same),
            fun _ _ => ⟨⟨true, rfl⟩, _, outcome.2 rfl⟩⟩
      unfold startStateSave
      split_ifs
      · exact Contract.wp_mono (saves s.server s.host started rfl staged fun _ marked => marked)
          fun out h' outcome => .inr ⟨statePath, started, false, staged, outcome⟩
      · rw [Handler.wp_run_bind]
        refine wp_call_bind (wp_of_careful (transitionStagedApplyAttempt_uses _ _ _ _) s.host)
          (fun error h' kept => ?_) fun _ h' kept => ?_
        · exact .inr ⟨statePath, started, false, staged, ⟨rfl,
            fun id marked => kept.marked _ _ marked, fun same => (nomatch same),
            fun _ _ => ⟨rfl, started, staged⟩, fun same => (nomatch same)⟩⟩
        · rw [setStaged, Handler.wp_run_update]
          dsimp only
          exact Contract.wp_mono (saves _ h' true rfl rfl fun id marked => kept.marked _ _ marked)
            fun out h' outcome => .inr ⟨statePath, started, false, staged, outcome⟩
  · exact .inl ⟨rfl, rfl, _, rfl⟩

/-- The attempt of the session is the one that its staged apply is about. -/
theorem attempt_id {server : DuetServerImpl} {state : StagedApplyState} {attemptId : String}
    {path : StatePath} (staged : server.stagedApply = some state)
    (about : state.attempt = some (attemptId, path)) :
    ∀ id statePath, server.attempt = some (id, statePath) → id = attemptId := by
  intro id statePath found
  have same : some (attemptId, path) = some (id, statePath) := by
    rw [← found, ← about, DuetServerImpl.attempt, staged]
    rfl
  cases same
  rfl

theorem completeStagedApplyInner_spec (attemptId : String) (s : Session) :
    alone.wp ((completeStagedApplyInner attemptId).run s.server)
      (fun out h' => match out.1 with
        | .ok _ => out.2.attempt = none ∧
          ∀ id statePath, s.server.attempt = some (id, statePath) → id = attemptId
        | .error _ => out.2 = s.server ∧ (h' = s.host ∨ ∃ statePath started,
          s.server.stagedApply = some (.committed attemptId statePath started true) ∧
          ∀ path, path ≠ applyAttemptPath statePath → h'.files path = s.host.files path))
      s.host := by
  refine wp_session_bind ?_
  split
  next activeId statePath started staged =>
    split_ifs with wrong
    · exact ⟨rfl, .inl rfl⟩
    · obtain rfl : activeId = attemptId := not_not.mp wrong
      have uses : (finishStagedApplyAttempt statePath activeId).Uses
          (HostOp.About (· = applyAttemptPath statePath)) :=
        @finishStagedApplyAttempt_uses (· = applyAttemptPath statePath) statePath rfl activeId
      exact wp_call_bind (wp_of_about uses s.host)
        (fun _ _ outcome => ⟨rfl, .inr ⟨statePath, started, staged, outcome⟩⟩)
        fun _ _ _ => ⟨rfl, attempt_id staged rfl⟩
  · exact ⟨rfl, .inl rfl⟩

/-! ## Abort -/

/-- What an abort that reports an error may do with the staged apply. -/
inductive AbortFails (attemptId : String) :
    Option StagedApplyState → Option StagedApplyState → Prop where
  | preparing (statePath : StatePath) (stream : Option Nat) :
      AbortFails attemptId (some (.preparing attemptId statePath stream))
        (some (.preparing attemptId statePath none))
  | prepared (statePath : StatePath) (prepared : PreparedApply) :
      AbortFails attemptId (some (.prepared attemptId statePath prepared))
        (some (.preparing attemptId statePath none))
  | aborted (statePath : StatePath) :
      AbortFails attemptId (some (.aborted attemptId statePath)) none

theorem abortStagedApply_spec (attemptId : String) (s : Session) :
    alone.wp ((abortStagedApply attemptId).run s.server)
      (fun out h' => match out.1 with
        | .ok _ => out.2.attempt = none ∧
          ∀ id statePath, s.server.attempt = some (id, statePath) → id = attemptId
        | .error _ => out.2.allOld = s.server.allOld ∧
          ((out.2.stagedApply = s.server.stagedApply ∧ s.host.Kept h') ∨
            AbortFails attemptId s.server.stagedApply out.2.stagedApply)) s.host := by
  have finishes : ∀ (server : DuetServerImpl) (statePath : StatePath) (abort : HostM Unit),
      server.allOld = s.server.allOld →
      AbortFails attemptId s.server.stagedApply (some (.preparing attemptId statePath none)) →
      (∀ id statePath, s.server.attempt = some (id, statePath) → id = attemptId) →
      alone.wp ((finishAbort attemptId statePath abort).run server)
      (fun out h' => match out.1 with
        | .ok _ => out.2.attempt = none ∧
          ∀ id statePath, s.server.attempt = some (id, statePath) → id = attemptId
        | .error _ => out.2.allOld = s.server.allOld ∧
          ((out.2.stagedApply = s.server.stagedApply ∧ s.host.Kept h') ∨
            AbortFails attemptId s.server.stagedApply out.2.stagedApply)) s.host := by
    intro server statePath abort baseline fails own
    refine Handler.wp_run_bind.mpr (Handler.wp_run_attempt.mpr
      (Contract.wp_mono wp_true fun result h' _ => ?_))
    cases result with
    | ok _ => exact ⟨rfl, own⟩
    | error error => exact ⟨baseline, .inr fails⟩
  refine wp_session_bind ?_
  split
  · exact ⟨rfl, .inl ⟨rfl, .refl _⟩⟩
  next activeId statePath stream staged =>
    split_ifs with wrong
    · exact ⟨rfl, .inl ⟨rfl, .refl _⟩⟩
    · obtain rfl : activeId = attemptId := not_not.mp wrong
      have fails : AbortFails activeId s.server.stagedApply
          (some (.preparing activeId statePath none)) := by
        rw [staged]
        exact .preparing statePath stream
      cases stream with
      | none => exact finishes s.server statePath _ rfl fails (attempt_id staged rfl)
      | some stream =>
        exact wp_update_bind (finishes _ statePath _ rfl fails (attempt_id staged rfl))
  next activeId statePath prepared staged =>
    split_ifs with wrong
    · exact ⟨rfl, .inl ⟨rfl, .refl _⟩⟩
    · obtain rfl : activeId = attemptId := not_not.mp wrong
      exact finishes _ statePath _ rfl (staged ▸ .prepared _ _) (attempt_id staged rfl)
  next activeId statePath staged =>
    split_ifs with wrong
    · exact ⟨rfl, .inl ⟨rfl, .refl _⟩⟩
    · obtain rfl : activeId = attemptId := not_not.mp wrong
      refine Handler.wp_run_bind.mpr (Handler.wp_run_attempt.mpr
        (Contract.wp_mono (wp_of_careful (describeApplyAttempt_uses statePath) s.host)
          fun result h' kept => ?_))
      rcases result with error | marker
      · exact ⟨rfl, .inr (staged ▸ .aborted statePath)⟩
      · cases marker with
        | some marker => exact ⟨rfl, .inl ⟨rfl, kept⟩⟩
        | none =>
          have ended : s.server.attempt = none := by
            rw [DuetServerImpl.attempt, staged]
            rfl
          refine ⟨ended, fun id statePath found => ?_⟩
          cases ended.symm.trans found
  · exact ⟨rfl, .inl ⟨rfl, .refl _⟩⟩
  · exact ⟨rfl, .inl ⟨rfl, .refl _⟩⟩

end Duet

import Duet.Wave.Stages
import Duet.Rpc.StagedCalls

/-!
# The calls of a wave on one host

Each call of the staged apply keeps the stage of its wave in every operation, and says what it
leaves when it succeeds. The same calls run on the side of the client and in the server.
-/

namespace Duet

open Lib Marker HostM.Uses

/-! ## What the calls perform -/

section Uses

variable {statePath : StatePath} {attemptId : String}

theorem HostOp.beforeCommit_of_none {op : HostOp} (touched : op.touched = none)
    (tree : op.SparesTree) : op.BeforeCommit statePath := by
  refine ⟨HostOp.about_of_none touched, tree, ?_⟩
  cases op <;> trivial

theorem check_beforeCommit (what : HostCheck) :
    (host (.check what)).Uses (HostOp.BeforeCommit statePath) :=
  op (HostOp.beforeCommit_of_none rfl trivial)

theorem startStagedApplyAttempt_beforeCommit (side : String) (base : Path) (actions : Actions) :
    (startStagedApplyAttempt side statePath base actions attemptId).Uses
      (HostOp.BeforeCommit statePath) := by
  unfold startStagedApplyAttempt
  split_ifs
  · exact throw
  · exact throw
  · exact throw
  · exact throw
  · exact bind (check_beforeCommit _) fun _ => op
      ⟨HostOp.about_of_some rfl rfl, trivial, fun _ => ⟨trivial, .inl rfl⟩⟩

theorem transition_beforeCommit :
    (transitionStagedApplyAttempt statePath attemptId [.preparing] .prepared).Uses
      (HostOp.BeforeCommit statePath) :=
  transitionStagedApplyAttempt_uses_of (HostOp.beforeCommit_of_none rfl trivial)
    ⟨HostOp.about_of_some rfl rfl, trivial, fun _ => .inr rfl⟩

/-- A call that may move the marker back to its name. -/
theorem restoreAfterRecoveryError_marks {α : Type} {ids : String → Prop}
    {phases : ApplyAttemptPhase → Prop} (file : HostFile) (error : Report) :
    (restoreAfterRecoveryError (applyAttemptPath statePath) file error : HostM α).Uses 
      (HostOp.OnMarker statePath ids phases) := by
  refine bind (result (op ⟨HostOp.about_of_some rfl rfl, trivial, trivial⟩)) fun restored => ?_
  cases restored <;> exact throw

theorem unlinkQuarantinedMarker_marks {ids : String → Prop} {phases : ApplyAttemptPhase → Prop}
    (file : HostFile) :
    (unlinkQuarantinedMarker (applyAttemptPath statePath) file).Uses 
      (HostOp.OnMarker statePath ids phases) := by
  refine bind (result (op ⟨HostOp.about_of_none rfl, trivial, trivial⟩)) fun unlinked => ?_
  cases unlinked with
  | error error => exact restoreAfterRecoveryError_marks file error
  | ok _ => exact op ⟨HostOp.about_of_none rfl, trivial, trivial⟩

theorem cleanupAndUnlink_marks {ids : String → Prop} {phases : ApplyAttemptPhase → Prop}
    (file contents : HostFile) :
    (cleanupAndUnlink (applyAttemptPath statePath) file contents).Uses 
      (HostOp.OnMarker statePath ids phases) := by
  refine bind (result (op ⟨HostOp.about_of_none rfl, trivial, trivial⟩)) fun cleaned => ?_
  cases cleaned with
  | error error => exact restoreAfterRecoveryError_marks file error
  | ok _ =>
    refine bind (result (op ⟨HostOp.about_of_none rfl, trivial, trivial⟩)) fun current => ?_
    cases current with
    | error error => exact restoreAfterRecoveryError_marks file error
    | ok current =>
      dsimp only
      split_ifs
      · exact unlinkQuarantinedMarker_marks file
      · exact restoreAfterRecoveryError_marks file _

theorem abortStagedApplyAttempt_beforeCommit :
    (abortStagedApplyAttempt statePath attemptId).Uses (HostOp.BeforeCommit statePath) := by
  refine bind (op ⟨HostOp.about_of_some rfl rfl, trivial, trivial⟩) fun file => ?_
  refine bind (result (op ⟨HostOp.about_of_none rfl, trivial, trivial⟩)) fun contents => ?_
  cases contents with
  | error error => exact restoreAfterRecoveryError_marks file error
  | ok contents =>
    cases contents with
    | stagedMarker header markerId phase records =>
      dsimp only
      split_ifs
      · exact restoreAfterRecoveryError_marks file _
      · exact cleanupAndUnlink_marks file _
      · exact restoreAfterRecoveryError_marks file _
    | _ => exact restoreAfterRecoveryError_marks file _

theorem finishStagedApplyAttempt_afterSave :
    (finishStagedApplyAttempt statePath attemptId).Uses (HostOp.AfterSave statePath attemptId) := by
  refine bind (transitionStagedApplyAttempt_uses_of
    ⟨HostOp.about_of_none rfl, trivial, trivial⟩
    ⟨HostOp.about_of_some rfl rfl, trivial, fun _ => trivial⟩) fun _ =>
    bind (op ⟨HostOp.about_of_some rfl rfl, trivial, trivial⟩) fun file =>
    unlinkQuarantinedMarker_marks file

namespace DetailApplier

variable {self : DetailApplier} (state : self.attemptState = some statePath)
include state

theorem stageOutput_beforeCommit : (HostOp.stageOutput self.marker).BeforeCommit statePath := by
  rw [marker, state]
  exact ⟨HostOp.about_of_some rfl rfl, trivial, trivial⟩

theorem applyFrame_beforeCommit : self.applyFrame.Uses (HostOp.BeforeCommit statePath) := by
  unfold applyFrame
  split_ifs
  · trivial
  · refine Program.Uses.bind ⟨stageOutput_beforeCommit state, fun _ => trivial⟩ fun result => ?_
    cases result <;> trivial

theorem finishPreparation_beforeCommit :
    self.finishPreparation.Uses (HostOp.BeforeCommit statePath) := by
  unfold finishPreparation
  split_ifs
  · exact throw
  · refine bind (op (stageOutput_beforeCommit state)) fun _ => bind (check_beforeCommit _) fun _ => ?_
    rw [state]
    split
    next same _ =>
      cases same
      exact bind transition_beforeCommit fun _ => pure
    next => exact pure

end DetailApplier

theorem validateCommit_beforeCommit (self : PreparedApply) :
    self.validateCommit.Uses (HostOp.BeforeCommit statePath) :=
  op (HostOp.beforeCommit_of_none rfl trivial)

theorem careful_duringCommit {op : HostOp} (careful : op.Careful) : op.DuringCommit statePath :=
  .inl careful.1

theorem saveEntriesAs_duringCommit (entries : Entries) (format : SnapshotFormat) :
    (saveEntriesAs statePath entries format).Uses (HostOp.DuringCommit statePath) :=
  bind (op (.inl trivial)) fun _ => op (.inr ⟨entries, format, rfl⟩)

end Uses

/-! ## What the calls leave -/

section Alone

variable {statePath : StatePath} {attemptId : String} {h : Host}

/-- A call that only reads. -/
def HostOp.ReadOnly (op : HostOp) : Prop := op.touched = none ∧ op.SparesTree ∧
  op ≠ .validateCommit ∧ ∀ path file, op ≠ .unlinkQuarantined path file

theorem Host.exec_readOnly {op : HostOp} {reply : Except Report op.Value} {h' : Host}
    (run : h.exec op reply h') (reads : op.ReadOnly) : h' = h := by
  obtain ⟨touched, tree, notValidate, notUnlink⟩ := reads
  cases exec_effect run with
  | none => rfl
  | validated => exact absurd rfl notValidate
  | dropped => exact absurd rfl (notUnlink _ _)
  | mutated => exact tree.elim
  | settled => exact tree.elim
  | staged recorded =>
    rcases recorded with rfl | ⟨target, file, file', same, -, -, -⟩
    · rfl
    · cases same.symm.trans touched
  | created | advanced | preparedNoted | torn | replaced | removed | movedAside | movedBack
  | saved => cases touched

theorem readOnly_keeping {α : Type} {m : HostM α} (uses : m.Uses HostOp.ReadOnly) {I : Host → Prop}
    (start : I h) : (Contract.keeping Host.exec I).wp m.run (fun _ h' => h' = h) h := by
  refine Contract.keeping_mono (Contract.keeping_of_uses (I := (· = h)) uses
    (fun op s reply t reads run same => (Host.exec_readOnly run reads).trans same) rfl)
    (fun t same => ?_) fun _ _ same => same
  subst same
  exact start

theorem check_readOnly (what : HostCheck) : (host (.check what)).Uses HostOp.ReadOnly :=
  op ⟨rfl, trivial, nofun, nofun⟩

theorem describeApplyAttempt_readOnly (statePath : StatePath) :
    (describeApplyAttempt statePath).Uses HostOp.ReadOnly := by
  refine bind (op ⟨rfl, trivial, nofun, nofun⟩) fun found => ?_
  split
  · exact bind (op ⟨rfl, trivial, nofun, nofun⟩) fun marker => pure
  · exact pure

theorem checkApplyAttemptClear_readOnly (statePath : StatePath) :
    (checkApplyAttemptClear statePath).Uses HostOp.ReadOnly := by
  refine bind (describeApplyAttempt_readOnly statePath) fun marker => ?_
  cases marker with
  | none => exact pure
  | some marker => exact throw

/-- An attempt that is not described has no marker. -/
theorem describeApplyAttempt_absent :
    alone.wp (describeApplyAttempt statePath).run
      (fun result _ => result = .ok none → h.files (applyAttemptPath statePath) = none) h := by
  unfold describeApplyAttempt
  rw [Contract.wp_run_bind, wp_alone_host]
  intro reply h₁ run
  cases reply with
  | error error => exact fun same => nomatch same
  | ok found =>
    obtain ⟨rfl, same⟩ : h₁ = h ∧ found = (h.files (applyAttemptPath statePath)).isSome := run
    cases found with
    | false => exact fun _ => Option.not_isSome_iff_eq_none.mp (by simp [← same])
    | true =>
      dsimp only
      rw [if_pos rfl, Contract.wp_run_bind, wp_alone_host]
      intro reply h₂ _
      cases reply with
      | error error => exact fun same => nomatch same
      | ok marker => exact fun same => nomatch same

/-- The check of a marker succeeds only when there is none. -/
theorem checkApplyAttemptClear_absent :
    alone.wp (checkApplyAttemptClear statePath).run
      (fun result _ => result = .ok () → h.files (applyAttemptPath statePath) = none) h := by
  refine Contract.wp_run_bind.mpr
    (Contract.wp_mono describeApplyAttempt_absent fun result _ absent => ?_)
  cases result with
  | error error => exact fun same => nomatch same
  | ok marker =>
    cases marker with
    | some marker => exact fun same => nomatch same
    | none => exact fun _ => absent rfl

/-- A transition that succeeds leaves the marker in its next phase. -/
theorem transitionStagedApplyAttempt_moves (expected : List ApplyAttemptPhase)
    (next : ApplyAttemptPhase) :
    alone.wp (transitionStagedApplyAttempt statePath attemptId expected next).run
      (fun result h' => result = .ok () →
        h.exec (.setPhase (applyAttemptPath statePath) attemptId expected next) (.ok ()) h') h := by
  unfold transitionStagedApplyAttempt
  rw [Contract.wp_run_bind, wp_alone_host]
  intro reply h₁ run
  cases reply with
  | error error => exact fun same => nomatch same
  | ok file =>
    obtain ⟨rfl, found⟩ : h₁ = h ∧ h.files (applyAttemptPath statePath) = some file := run
    cases file with
    | stagedMarker header markerId phase records =>
      dsimp only
      split_ifs
      · exact fun same => nomatch same
      · rw [wp_alone_host]
        intro reply h₂ run same
        subst same
        exact run
      · exact fun same => nomatch same
    | _ => exact fun same => nomatch same

/-- A preparation that succeeds leaves the marker of its attempt, and the wave is prepared. -/
theorem finishPreparation_prepared (self : DetailApplier) (state : self.attemptState = some statePath)
    (id : self.attemptId = some attemptId) :
    alone.wp self.finishPreparation.run
      (fun result h' => ∀ prepared, result = .ok prepared →
        prepared.inner = self ∧ h'.Marked statePath attemptId ∧ h'.wave ∈ h'.prepared) h := by
  unfold DetailApplier.finishPreparation
  rw [state, id]
  split_ifs
  · exact fun _ same => nomatch same
  · refine wp_run_bind_true (fun _ _ _ same => nomatch same) fun _ h₁ => ?_
    refine wp_run_bind_true (fun _ _ _ same => nomatch same) fun _ h₂ => ?_
    refine Contract.wp_run_bind.mpr (Contract.wp_mono
      (transitionStagedApplyAttempt_moves [.preparing] .prepared) fun result h₃ moves => ?_)
    cases result with
    | error error => exact fun _ same => nomatch same
    | ok _ =>
      intro prepared same
      cases same
      obtain ⟨moved, ⟨header, phase, records, -, -, -, rfl⟩, rfl⟩ := moves rfl
      exact ⟨rfl, .inl ⟨header, .prepared, records, by simp⟩, by simp⟩

theorem validateCommit_validated (self : PreparedApply) :
    alone.wp self.validateCommit.run
      (fun result h' => result = .ok () → h' = h.noteValidated) h := by
  unfold PreparedApply.validateCommit
  rw [wp_alone_host]
  intro reply h' run same
  subst same
  exact run

/-- A marker that could be unlinked is gone. -/
theorem unlinkQuarantinedMarker_gone (file : HostFile) (absent : h.files (applyAttemptPath statePath) = none) :
    alone.wp (unlinkQuarantinedMarker (applyAttemptPath statePath) file).run
      (fun result h' => result = .ok () → h'.files (applyAttemptPath statePath) = none ∧
        h'.quarantined = h.quarantined.erase (applyAttemptPath statePath, file)) h := by
  have restored : ∀ (error : Report) (g : Host),
      alone.wp (restoreAfterRecoveryError (α := Unit) (applyAttemptPath statePath) file error).run
        (fun result h' => result = .ok () → h'.files (applyAttemptPath statePath) = none ∧
          h'.quarantined = h.quarantined.erase (applyAttemptPath statePath, file)) g := by
    intro error g
    refine wp_run_bind_true (fun _ _ same => nomatch same) fun restored h₁ => ?_
    cases restored with
    | ok _ => exact fun same => nomatch same
    | error _ => exact fun same => nomatch same
  unfold unlinkQuarantinedMarker
  rw [Contract.wp_run_bind]
  refine Contract.wp_run_lift.mpr ?_
  rw [wp_alone_host]
  intro reply h₁ run
  cases reply with
  | error error => exact restored error h₁
  | ok _ =>
    obtain ⟨-, rfl⟩ : _ ∧ h₁ = h.dropQuarantined (applyAttemptPath statePath) file := run
    change alone.wp (host (.syncParent (applyAttemptPath statePath))).run _ _
    rw [wp_alone_host]
    intro reply h₂ run same
    subst same
    rw [show h₂ = h.dropQuarantined (applyAttemptPath statePath) file from run]
    exact ⟨absent, rfl⟩

/-- A call that ends with an error after the marker was moved back. -/
theorem restoreAfterRecoveryError_fails {α : Type} {marker : StatePath} {file : HostFile}
    {error : Report} {Q : Except Report α → Host → Prop}
    (failed : ∀ error h', Q (.error error) h') :
    alone.wp (restoreAfterRecoveryError marker file error).run Q h := by
  refine wp_run_bind_true (fun _ _ => failed _ _) fun restored h₁ => ?_
  cases restored with
  | ok _ => exact failed _ _
  | error _ => exact failed _ _

/-- An abort that succeeds has removed the marker. -/
theorem abortStagedApplyAttempt_gone :
    alone.wp (abortStagedApplyAttempt statePath attemptId).run
      (fun result h' => result = .ok () → h'.files (applyAttemptPath statePath) = none) h := by
  unfold abortStagedApplyAttempt
  dsimp only
  rw [Contract.wp_run_bind, wp_alone_host]
  intro reply h₁ run
  cases reply with
  | error error => exact fun same => nomatch same
  | ok file =>
    obtain ⟨-, rfl⟩ : _ ∧ h₁ = h.moveAside (applyAttemptPath statePath) file := run
    have absent : (h.moveAside (applyAttemptPath statePath) file).files
        (applyAttemptPath statePath) = none := by simp
    generalize h.moveAside (applyAttemptPath statePath) file = g at absent ⊢
    refine Contract.wp_run_bind.mpr (Contract.wp_run_lift.mpr ?_)
    rw [wp_alone_host]
    intro reply h₂ run
    cases reply with
    | error error => exact restoreAfterRecoveryError_fails fun _ _ same => nomatch same
    | ok contents =>
      obtain ⟨-, -, rfl⟩ : _ ∧ _ ∧ h₂ = g := run
      cases contents with
      | stagedMarker header markerId phase records =>
        dsimp only
        split_ifs
        · exact restoreAfterRecoveryError_fails fun _ _ same => nomatch same
        · unfold cleanupAndUnlink
          refine Contract.wp_run_bind.mpr (Contract.wp_run_lift.mpr ?_)
          rw [wp_alone_host]
          intro reply h₃ run
          have same : h₃ = h₂ := by cases reply <;> exact run
          subst same
          cases reply with
          | error error => exact restoreAfterRecoveryError_fails fun _ _ same => nomatch same
          | ok _ =>
            refine Contract.wp_run_bind.mpr (Contract.wp_run_lift.mpr ?_)
            rw [wp_alone_host]
            intro reply h₄ run
            cases reply with
            | error error => exact restoreAfterRecoveryError_fails fun _ _ same => nomatch same
            | ok current =>
              obtain ⟨-, -, rfl⟩ : _ ∧ _ ∧ h₄ = h₃ := run
              dsimp only
              split_ifs
              · exact Contract.wp_mono (unlinkQuarantinedMarker_gone file absent)
                  fun _ _ gone same => (gone same).1
              · exact restoreAfterRecoveryError_fails fun _ _ same => nomatch same
        · exact restoreAfterRecoveryError_fails fun _ _ same => nomatch same
      | _ => exact restoreAfterRecoveryError_fails fun _ _ same => nomatch same

/-- An attempt that is finished has no marker any more. -/
theorem finishStagedApplyAttempt_gone (aside : h.quarantined = []) :
    alone.wp (finishStagedApplyAttempt statePath attemptId).run
      (fun result h' => result = .ok () → h'.files (applyAttemptPath statePath) = none ∧
        h'.quarantined = []) h := by
  have moved : alone.wp (transitionStagedApplyAttempt statePath attemptId [.stateSave] .finished).run
      (fun _ h' => h'.quarantined = []) h := by
    have uses : (transitionStagedApplyAttempt statePath attemptId [.stateSave] .finished).Uses
        fun op => ∀ path, op ≠ .quarantine path :=
      transitionStagedApplyAttempt_uses_of nofun nofun
    exact Contract.wp_of_uses (P := fun h : Host => h.quarantined = []) uses alone_stable
      (fun _ _ _ _ stays run empty => ⟨trivial, Host.exec_quarantined run stays empty⟩) aside
  refine Contract.wp_run_bind.mpr (Contract.wp_mono moved fun result h₁ empty => ?_)
  cases result with
  | error error => exact fun same => nomatch same
  | ok _ =>
    refine Contract.wp_run_bind.mpr ?_
    rw [wp_alone_host]
    intro reply h₂ run
    cases reply with
    | error error => exact fun same => nomatch same
    | ok file =>
      obtain ⟨-, rfl⟩ : _ ∧ h₂ = h₁.moveAside (applyAttemptPath statePath) file := run
      refine Contract.wp_mono (unlinkQuarantinedMarker_gone file (by simp)) fun _ _ gone same => ?_
      obtain ⟨absent, left⟩ := gone same
      exact ⟨absent, by simpa [empty] using left⟩

theorem wp_spares {α : Type} {m : HostM α} (uses : m.Uses HostOp.SparesTree) (h : Host) :
    alone.wp m.run (fun _ h' => h'.tree = h.tree ∧ h'.wave = h.wave) h :=
  Contract.wp_of_uses (P := fun h' : Host => h'.tree = h.tree ∧ h'.wave = h.wave) uses alone_stable
    (fun _ _ _ _ spares run same => ⟨trivial, (Host.exec_tree run spares).trans same.1,
      (Host.exec_notes run).wave.trans same.2⟩) ⟨rfl, rfl⟩

/-- A commit that succeeds settles the tree of its wave. -/
theorem commitProfiled_settled (prepared : PreparedApply) :
    alone.wp prepared.commitProfiled.run
      (fun result h' => ∀ entries, result = .ok entries → h'.tree = .settled h'.wave entries) h := by
  refine wp_run_bind_true (fun _ _ _ same => nomatch same) fun _ _ => ?_
  refine wp_run_bind_true (fun _ _ _ same => nomatch same) fun _ _ => ?_
  refine wp_run_bind_true (fun _ _ _ same => nomatch same) fun _ _ => ?_
  refine wp_run_bind_true (fun _ _ _ same => nomatch same) fun _ _ => ?_
  refine wp_run_bind_true (fun _ _ _ same => nomatch same) fun results h₁ => ?_
  split
  · exact fun _ same => nomatch same
  next entries merged =>
    rw [Contract.wp_run_bind, wp_alone_host]
    intro reply h₂ run
    cases reply with
    | error error => exact fun _ same => nomatch same
    | ok _ =>
      have settled : h₂.tree = .settled h₂.wave entries := by
        rw [show h₂ = h₁.settle entries from run]
        rfl
      have rest : HostM.Uses HostOp.SparesTree (do
          host (.check .stagingCleanup)
          prepared.transition .committing .committed) := by
        refine .bind (.op trivial) fun _ => ?_
        unfold PreparedApply.transition
        split
        · exact transitionStagedApplyAttempt_uses_of trivial trivial
        · exact .pure
      have tail := Contract.wp_run_bind.mp (wp_spares rest h₂)
      refine Contract.wp_run_bind.mpr (Contract.wp_mono tail fun checked h₃ outcome => ?_)
      cases checked with
      | error error => exact fun _ same => nomatch same
      | ok _ =>
        refine Contract.wp_run_bind.mpr (Contract.wp_mono outcome fun moved h₄ same => ?_)
        cases moved with
        | error error => exact fun _ same => nomatch same
        | ok _ =>
          intro found equal
          cases equal
          rw [same.1, same.2, settled]

end Alone

/-! ## Calls in a stage -/

namespace Host

/-- Before the commit of a wave, with no marker moved away. -/
structure Tidy (h : Host) (statePath : StatePath) (file : Option HostFile) (tree : TargetTree)
    (wave : Nat) : Prop extends h.Untouched statePath file tree where
  aside : h.quarantined = []
  current : h.wave = wave

/-- Before the commit, with a wave that has been prepared. -/
structure Prepared (h : Host) (statePath : StatePath) (file : Option HostFile) (tree : TargetTree)
    (wave : Nat) (attemptId : String) : Prop extends h.Tidy statePath file tree wave where
  prepared : wave ∈ h.prepared
  marked : h.Marked statePath attemptId

/-- The tree is committed and the state is about to be saved. -/
structure Committed (h : Host) (statePath : StatePath) (wave : Nat) (attemptId : String)
    (entries : Entries) : Prop extends h.Committing statePath wave attemptId where
  settled : h.tree = .settled wave entries

variable {h h' : Host} {op : HostOp} {reply : Except Report op.Value} {statePath : StatePath}
  {file : Option HostFile} {tree : TargetTree} {wave : Nat} {attemptId : String} {entries : Entries}

theorem Tidy.exec (holds : h.Tidy statePath file tree wave) (run : h.exec op reply h')
    (allowed : op.BeforeCommit statePath) (careful : op.Careful) : h'.Tidy statePath file tree wave := by
  refine ⟨holds.toUntouched.exec run allowed, exec_quarantined run (fun path same => ?_) holds.aside,
    (exec_notes run).wave.trans holds.current⟩
  subst same
  exact careful.1

theorem Prepared.exec (holds : h.Prepared statePath file tree wave attemptId)
    (run : h.exec op reply h') (allowed : op.BeforeCommit statePath) (careful : op.Careful) :
    h'.Prepared statePath file tree wave attemptId := by
  exact ⟨holds.toTidy.exec run allowed careful, (exec_notes run).prepared holds.prepared,
    exec_marked run careful.1 holds.marked⟩

theorem Committed.exec (holds : h.Committed statePath wave attemptId entries)
    (run : h.exec op reply h') (allowed : op.DuringCommit statePath) (tree : op.SparesTree) :
    h'.Committed statePath wave attemptId entries :=
  ⟨holds.toCommitting.exec run allowed, (exec_tree run tree).trans holds.settled⟩

/-- A wave that both was prepared and validated may commit. -/
theorem Prepared.committing (holds : h.Prepared statePath file tree wave attemptId)
    (validated : wave ∈ h.validated) : h.Committing statePath wave attemptId :=
  ⟨⟨holds.current, holds.prepared, validated⟩, holds.marked, holds.aside⟩

end Host

section Calls

variable {α : Type} {m : HostM α} {Q : Except Report α → Host → Prop} {h : Host}
  {statePath : StatePath} {file : Option HostFile} {tree : TargetTree} {wave : Nat}
  {attemptId : String} {entries : Entries}

/-- What a call leaves, and that it keeps a stage in every operation. -/
theorem keeping_call_of_uses {β : Type} {p : Program hostEffects β} {Q : β → Host → Prop}
    {I : Host → Prop} {allowed : HostOp → Prop} (uses : p.Uses allowed)
    (keeps : ∀ op h reply h', allowed op → Host.exec op h reply h' → I h → I h')
    (post : alone.wp p Q h) (start : I h) :
    (Contract.keeping Host.exec I).wp p (fun result h' => I h' ∧ Q result h') h :=
  have both := @Contract.keeping_and _ _ _ _ I (fun _ => True) _ _ _ _
    (Contract.keeping_of_uses uses keeps start) post
  Contract.keeping_mono both (fun _ kept => kept.1) fun _ _ kept => kept

theorem untouched_call (uses : m.Uses (HostOp.BeforeCommit statePath)) (post : alone.wp m.run Q h)
    (start : h.Untouched statePath file tree) :
    (Contract.keeping Host.exec (·.Untouched statePath file tree)).wp m.run
      (fun result h' => h'.Untouched statePath file tree ∧ Q result h') h :=
  keeping_call_of_uses uses (fun _ _ _ _ allowed run holds => holds.exec run allowed) post start

theorem tidy_call (uses : m.Uses (HostOp.BeforeCommit statePath)) (careful : m.Uses HostOp.Careful)
    (post : alone.wp m.run Q h) (start : h.Tidy statePath file tree wave) :
    (Contract.keeping Host.exec (·.Tidy statePath file tree wave)).wp m.run
      (fun result h' => h'.Tidy statePath file tree wave ∧ Q result h') h :=
  keeping_call_of_uses (Program.Uses.and uses careful)
    (fun _ _ _ _ allowed run holds => holds.exec run allowed.1 allowed.2) post start

theorem committing_call (uses : m.Uses (HostOp.DuringCommit statePath)) (post : alone.wp m.run Q h)
    (start : h.Committing statePath wave attemptId) :
    (Contract.keeping Host.exec (·.Committing statePath wave attemptId)).wp m.run
      (fun result h' => h'.Committing statePath wave attemptId ∧ Q result h') h :=
  keeping_call_of_uses uses (fun _ _ _ _ allowed run holds => holds.exec run allowed) post start

theorem committed_call (uses : m.Uses (HostOp.DuringCommit statePath))
    (spares : m.Uses HostOp.SparesTree) (post : alone.wp m.run Q h)
    (start : h.Committed statePath wave attemptId entries) :
    (Contract.keeping Host.exec (·.Committed statePath wave attemptId entries)).wp m.run
      (fun result h' => h'.Committed statePath wave attemptId entries ∧ Q result h') h :=
  keeping_call_of_uses (Program.Uses.and uses spares)
    (fun _ _ _ _ allowed run holds => holds.exec run allowed.1 allowed.2) post start

/-! ### The single calls -/

/-- One frame of an attempt. -/
theorem applyFrame_tidy {self : DetailApplier} (state : self.attemptState = some statePath)
    (start : h.Tidy statePath file tree wave) :
    (Contract.keeping Host.exec (·.Tidy statePath file tree wave)).wp self.applyFrame
      (fun out h' => h'.Tidy statePath file tree wave ∧ out.2.attemptState = some statePath ∧
        out.2.attemptId = self.attemptId) h := by
  refine keeping_call_of_uses (Program.Uses.and (DetailApplier.applyFrame_beforeCommit state)
    self.applyFrame_uses) (fun _ _ _ _ allowed run holds => holds.exec run allowed.1 allowed.2) ?_ start
  unfold DetailApplier.applyFrame
  split_ifs
  · exact ⟨state, rfl⟩
  · refine Contract.wp_bind.mpr (Contract.wp_mono wp_true fun result _ _ => ?_)
    cases result with
    | ok _ => exact ⟨state, rfl⟩
    | error _ => exact ⟨state, rfl⟩

theorem startStagedApplyAttempt_tidy (side : String) (base : Path) (actions : Actions)
    (start : h.Tidy statePath file tree wave) :
    (Contract.keeping Host.exec (·.Tidy statePath file tree wave)).wp
      (startStagedApplyAttempt side statePath base actions attemptId).run
      (fun _ h' => h'.Tidy statePath file tree wave ∧ True) h :=
  tidy_call (startStagedApplyAttempt_beforeCommit side base actions)
    (startStagedApplyAttempt_uses side statePath base actions attemptId) wp_true start

/-- The preparation of an attempt. -/
theorem finishPreparation_tidy {self : DetailApplier} (state : self.attemptState = some statePath)
    (id : self.attemptId = some attemptId)
    (start : h.Tidy statePath file tree wave) :
    (Contract.keeping Host.exec (·.Tidy statePath file tree wave)).wp self.finishPreparation.run
      (fun result h' => h'.Tidy statePath file tree wave ∧ ∀ prepared, result = .ok prepared →
        prepared.inner = self ∧ h'.Prepared statePath file tree wave attemptId) h := by
  refine Contract.keeping_mono (tidy_call (DetailApplier.finishPreparation_beforeCommit state)
    self.finishPreparation_uses (finishPreparation_prepared self state id) start)
    (fun _ kept => kept) fun result h' kept => ?_
  obtain ⟨tidy, outcome⟩ := kept
  refine ⟨tidy, fun prepared same => ?_⟩
  obtain ⟨inner, marked, noted⟩ := outcome prepared same
  exact ⟨inner, ⟨tidy, tidy.current ▸ noted, marked⟩⟩

/-- The validation of a prepared attempt. -/
theorem validateCommit_prepared (self : PreparedApply)
    (start : h.Prepared statePath file tree wave attemptId) :
    (Contract.keeping Host.exec (·.Prepared statePath file tree wave attemptId)).wp
      self.validateCommit.run
      (fun result h' => h'.Prepared statePath file tree wave attemptId ∧
        (result = .ok () → wave ∈ h'.validated)) h := by
  refine Contract.keeping_mono (keeping_call_of_uses
    (Program.Uses.and (validateCommit_beforeCommit self) self.validateCommit_uses)
    (fun _ _ _ _ allowed run holds => holds.exec run allowed.1 allowed.2)
    (validateCommit_validated self) start) (fun _ kept => kept) fun result h' kept => ?_
  refine ⟨kept.1, fun same => ?_⟩
  rw [kept.2 same, Host.noteValidated_validated, start.current]
  exact List.mem_cons_self

/-- The commit of a wave. -/
theorem commitProfiled_committing (prepared : PreparedApply)
    (start : h.Committing statePath wave attemptId) :
    (Contract.keeping Host.exec (·.Committing statePath wave attemptId)).wp
      prepared.commitProfiled.run
      (fun result h' => h'.Committing statePath wave attemptId ∧
        ∀ entries, result = .ok entries → h'.Committed statePath wave attemptId entries) h := by
  refine Contract.keeping_mono (committing_call
    (HostM.Uses.mono prepared.commitProfiled_uses fun _ => careful_duringCommit)
    (commitProfiled_settled prepared) start) (fun _ kept => kept) fun result h' kept => ?_
  refine ⟨kept.1, fun entries same => ⟨kept.1, ?_⟩⟩
  rw [kept.2 entries same, kept.1.ready.current]

theorem markStateSave_committed (start : h.Committed statePath wave attemptId entries) :
    (Contract.keeping Host.exec (·.Committed statePath wave attemptId entries)).wp
      (markStagedApplyAttemptStateSave statePath attemptId).run
      (fun _ h' => h'.Committed statePath wave attemptId entries ∧ True) h :=
  committed_call
    (HostM.Uses.mono (transitionStagedApplyAttempt_uses _ _ _ _) fun _ => careful_duringCommit)
    (transitionStagedApplyAttempt_uses_of trivial trivial) wp_true start

/-- The state save of a committed wave. -/
theorem saveEntriesAs_committed (format : SnapshotFormat)
    (start : h.Committed statePath wave attemptId entries) :
    (Contract.keeping Host.exec (·.Committed statePath wave attemptId entries)).wp
      (saveEntriesAs statePath entries format).run
      (fun result h' => h'.Committed statePath wave attemptId entries ∧
        (result = .ok () → h'.Saved statePath wave attemptId)) h := by
  refine Contract.keeping_mono (committed_call (saveEntriesAs_duringCommit entries format)
    (.bind (.op trivial) fun _ => .op trivial) (saveEntriesAs_spec statePath entries format h)
    start) (fun _ kept => kept) fun result h' kept => ?_
  obtain ⟨committed, -, saved⟩ := kept
  exact ⟨committed, fun same => committed.toCommitting.saved (saved same) committed.settled⟩

/-- The end of a wave on one side. -/
theorem finishStagedApplyAttempt_saved (start : h.Saved statePath wave attemptId)
    (aside : h.quarantined = []) :
    (Contract.keeping Host.exec (·.Saved statePath wave attemptId)).wp
      (finishStagedApplyAttempt statePath attemptId).run
      (fun result h' => h'.Saved statePath wave attemptId ∧ (result = .ok () →
        h'.files (applyAttemptPath statePath) = none ∧ h'.quarantined = [])) h :=
  keeping_call_of_uses finishStagedApplyAttempt_afterSave
    (fun _ _ _ _ allowed run holds => holds.exec run allowed) (finishStagedApplyAttempt_gone aside)
    start

theorem abortStagedApplyAttempt_untouched (start : h.Untouched statePath file tree) :
    (Contract.keeping Host.exec (·.Untouched statePath file tree)).wp
      (abortStagedApplyAttempt statePath attemptId).run
      (fun result h' => h'.Untouched statePath file tree ∧ (result = .ok () →
        h'.files (applyAttemptPath statePath) = none)) h :=
  untouched_call abortStagedApplyAttempt_beforeCommit abortStagedApplyAttempt_gone start

end Calls

end Duet

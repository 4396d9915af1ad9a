import Duet.Sync.AttemptFrame

/-!
# Which operations the calls of an attempt perform

The calls that begin, prepare, validate and commit an attempt are careful: they touch
markers only, and leave in place what is there. The calls that remove a marker touch that
marker only.
-/

namespace Duet

open Lib Marker

namespace HostM

variable {α β : Type} {allowed : HostOp → Prop}

/-- Every operation that a call may perform is allowed. -/
def Uses (allowed : HostOp → Prop) (call : HostM α) : Prop := call.run.Uses allowed

theorem Uses.pure {value : α} : (Pure.pure value : HostM α).Uses allowed := trivial

theorem Uses.throw {error : Report} : (MonadExcept.throw error : HostM α).Uses allowed := trivial

theorem Uses.op {op : HostOp} (holds : allowed op) : (Duet.host op).Uses allowed :=
  ⟨holds, fun _ => trivial⟩

theorem Uses.bind {call : HostM α} {f : α → HostM β} (first : call.Uses allowed)
    (rest : ∀ value, (f value).Uses allowed) : (call >>= f).Uses allowed :=
  Program.Uses.run_bind first rest

theorem Uses.result {call : HostM α} (uses : call.Uses allowed) : call.result.Uses allowed :=
  Program.Uses.run_lift uses

theorem Uses.mono {other : HostOp → Prop} {call : HostM α} (uses : call.Uses allowed)
    (weaker : ∀ op, allowed op → other op) : call.Uses other :=
  Program.Uses.mono uses weaker

end HostM

namespace HostOp

/-- The operation is about no file but the ones of `paths`. -/
def About (paths : StatePath → Prop) (op : HostOp) : Prop :=
  ∀ path, op.touched = some path → paths path

/-- The operation touches a marker at most, and neither removes nor replaces it. -/
def Careful (op : HostOp) : Prop :=
  op.Gentle ∧ op.About fun path => ∃ state, path = applyAttemptPath state

variable {op : HostOp}

theorem about_of_none {paths : StatePath → Prop} (touched : op.touched = none) :
    op.About paths := by
  intro path same
  cases touched.symm.trans same

theorem about_of_some {paths : StatePath → Prop} {target : StatePath}
    (touched : op.touched = some target) (holds : paths target) : op.About paths := by
  intro path same
  cases Option.some.inj (touched.symm.trans same)
  exact holds

theorem careful_of_none (gentle : op.Gentle) (touched : op.touched = none) : op.Careful :=
  ⟨gentle, about_of_none touched⟩

theorem careful_of_some {state : StatePath} (gentle : op.Gentle)
    (touched : op.touched = some (applyAttemptPath state)) : op.Careful :=
  ⟨gentle, about_of_some touched ⟨state, rfl⟩⟩

/-- What a marker of an attempt records is careful. -/
theorem careful_of_map {state : Option StatePath} (gentle : op.Gentle)
    (touched : op.touched = state.map applyAttemptPath) : op.Careful := by
  cases state with
  | none => exact careful_of_none gentle touched
  | some state => exact careful_of_some gentle touched

end HostOp

open HostM.Uses HostOp

/-! ## The careful calls -/

theorem check_uses (what : HostCheck) : (Duet.host (.check what)).Uses Careful :=
  op (careful_of_none trivial rfl)

theorem describeApplyAttempt_uses (statePath : StatePath) :
    (describeApplyAttempt statePath).Uses Careful := by
  refine bind (op (careful_of_none trivial rfl)) fun found => ?_
  split
  · exact bind (op (careful_of_none trivial rfl)) fun marker => pure
  · exact pure

theorem checkApplyAttemptClear_uses (statePath : StatePath) :
    (checkApplyAttemptClear statePath).Uses Careful := by
  refine bind (describeApplyAttempt_uses statePath) fun marker => ?_
  cases marker with
  | none => exact pure
  | some marker => exact throw

theorem startApplyAttempt_uses (side : String) (statePath : StatePath) (base : Path)
    (actions : Actions) (attemptId : Option String) :
    (startApplyAttempt side statePath base actions attemptId).Uses Careful :=
  op (careful_of_some trivial rfl)

theorem startStagedApplyAttempt_uses (side : String) (statePath : StatePath) (base : Path)
    (actions : Actions) (attemptId : String) :
    (startStagedApplyAttempt side statePath base actions attemptId).Uses Careful := by
  unfold startStagedApplyAttempt
  split_ifs
  · exact throw
  · exact throw
  · exact throw
  · exact throw
  · exact bind (op (careful_of_none trivial rfl)) fun _ => op (careful_of_some trivial rfl)

theorem transitionStagedApplyAttempt_uses_of {allowed : HostOp → Prop} {statePath : StatePath}
    {attemptId : String} {expected : List ApplyAttemptPhase} {next : ApplyAttemptPhase}
    (reads : allowed (.readMarker (applyAttemptPath statePath)))
    (moves : allowed (.setPhase (applyAttemptPath statePath) attemptId expected next)) :
    (transitionStagedApplyAttempt statePath attemptId expected next).Uses allowed := by
  refine bind (op reads) fun file => ?_
  cases file with
  | stagedMarker header markerId phase records =>
    dsimp only
    split_ifs
    · exact throw
    · exact op moves
    · exact throw
  | _ => exact throw

theorem transitionStagedApplyAttempt_uses (statePath : StatePath) (attemptId : String)
    (expected : List ApplyAttemptPhase) (next : ApplyAttemptPhase) :
    (transitionStagedApplyAttempt statePath attemptId expected next).Uses Careful :=
  transitionStagedApplyAttempt_uses_of (careful_of_none trivial rfl) (careful_of_some trivial rfl)

namespace DetailApplier

theorem applyFrame_uses (self : DetailApplier) : self.applyFrame.Uses Careful := by
  unfold applyFrame
  split_ifs
  · trivial
  · refine Program.Uses.bind ⟨careful_of_map trivial rfl, fun _ => trivial⟩ fun result => ?_
    cases result <;> trivial

theorem finishPreparation_uses (self : DetailApplier) : self.finishPreparation.Uses Careful := by
  unfold finishPreparation
  split_ifs
  · exact throw
  · refine bind (op (careful_of_map trivial rfl)) fun _ => ?_
    refine bind (op (careful_of_none trivial rfl)) fun _ => ?_
    split
    · exact bind (transitionStagedApplyAttempt_uses _ _ _ _) fun _ => pure
    · exact pure

end DetailApplier

namespace PreparedApply

theorem validateCommit_uses (self : PreparedApply) : self.validateCommit.Uses Careful :=
  op (careful_of_none trivial rfl)

theorem transition_uses (self : PreparedApply) (expected next : ApplyAttemptPhase) :
    (self.transition expected next).Uses Careful := by
  unfold transition
  split
  · exact transitionStagedApplyAttempt_uses _ _ _ _
  · exact pure

theorem mutateTargets_uses (self : PreparedApply) (actions : Actions) :
    (self.mutateTargets actions).Uses Careful := by
  induction actions with
  | nil => exact pure
  | cons action rest ih => exact bind (op (careful_of_map trivial rfl)) fun _ => ih

theorem commitProfiled_uses (self : PreparedApply) : self.commitProfiled.Uses Careful := by
  refine bind (validateCommit_uses self) fun _ => bind (transition_uses self _ _) fun _ =>
    bind (mutateTargets_uses self _) fun _ => bind (mutateTargets_uses self _) fun _ =>
    bind (op (careful_of_none trivial rfl)) fun results => ?_
  split
  · exact throw
  · exact bind (op (careful_of_none trivial rfl)) fun _ =>
      bind (op (careful_of_none trivial rfl)) fun _ =>
      bind (transition_uses self _ _) fun _ => pure

end PreparedApply

theorem DetailApplier.finish_uses (self : DetailApplier) : self.finish.Uses Careful :=
  bind self.finishPreparation_uses fun prepared => prepared.commitProfiled_uses

theorem applyDetailedChanges_uses (actions : Actions) (statePath : StatePath) :
    (applyDetailedChanges actions (some (applyAttemptPath statePath))).Uses Careful :=
  bind (op (careful_of_none trivial rfl)) fun _ =>
    bind (op (careful_of_some trivial rfl)) fun _ => op (careful_of_none trivial rfl)

/-! ## The calls about one file -/

section About

variable {paths : StatePath → Prop} {marker : StatePath}

theorem restoreAfterRecoveryError_uses {α : Type} (holds : paths marker) (file : HostFile)
    (error : Report) :
    (restoreAfterRecoveryError marker file error : HostM α).Uses (About paths) := by
  refine bind (result (op (about_of_some rfl holds))) fun restored => ?_
  cases restored <;> exact throw

theorem unlinkQuarantinedMarker_uses (holds : paths marker) (file : HostFile) :
    (unlinkQuarantinedMarker marker file).Uses (About paths) := by
  refine bind (result (op (about_of_none rfl))) fun unlinked => ?_
  cases unlinked with
  | error error => exact restoreAfterRecoveryError_uses holds file error
  | ok _ => exact op (about_of_none rfl)

theorem cleanupAndUnlink_uses (holds : paths marker) (file contents : HostFile) :
    (cleanupAndUnlink marker file contents).Uses (About paths) := by
  refine bind (result (op (about_of_none rfl))) fun cleaned => ?_
  cases cleaned with
  | error error => exact restoreAfterRecoveryError_uses holds file error
  | ok _ =>
    refine bind (result (op (about_of_none rfl))) fun current => ?_
    cases current with
    | error error => exact restoreAfterRecoveryError_uses holds file error
    | ok current =>
      dsimp only
      split_ifs
      · exact unlinkQuarantinedMarker_uses holds file
      · exact restoreAfterRecoveryError_uses holds file _

theorem abortStagedApplyAttempt_uses {statePath : StatePath}
    (holds : paths (applyAttemptPath statePath)) (attemptId : String) :
    (abortStagedApplyAttempt statePath attemptId).Uses (About paths) := by
  refine bind (op (about_of_some rfl holds)) fun file => ?_
  refine bind (result (op (about_of_none rfl))) fun contents => ?_
  cases contents with
  | error error => exact restoreAfterRecoveryError_uses holds file error
  | ok contents =>
    cases contents with
    | stagedMarker header markerId phase records =>
      dsimp only
      split_ifs
      · exact restoreAfterRecoveryError_uses holds file _
      · exact cleanupAndUnlink_uses holds file _
      · exact restoreAfterRecoveryError_uses holds file _
    | _ => exact restoreAfterRecoveryError_uses holds file _

theorem clearApplyAttempt_uses {statePath : StatePath}
    (holds : paths (applyAttemptPath statePath)) :
    (clearApplyAttempt statePath).Uses (About paths) := by
  refine bind (op (about_of_some rfl holds)) fun file => ?_
  refine bind (result (op (about_of_none rfl))) fun contents => ?_
  cases contents with
  | error error => exact restoreAfterRecoveryError_uses holds file error
  | ok contents =>
    cases contents with
    | stagedMarker header markerId phase records =>
      dsimp only
      split_ifs
      · exact cleanupAndUnlink_uses holds file _
      · exact unlinkQuarantinedMarker_uses holds file
    | applyMarker => exact unlinkQuarantinedMarker_uses holds file
    | _ => exact restoreAfterRecoveryError_uses holds file _

theorem finishApplyAttempt_uses {statePath : StatePath}
    (holds : paths (applyAttemptPath statePath)) :
    (finishApplyAttempt statePath).Uses (About paths) :=
  op (about_of_some rfl holds)

theorem finishStagedApplyAttempt_uses {statePath : StatePath}
    (holds : paths (applyAttemptPath statePath)) (attemptId : String) :
    (finishStagedApplyAttempt statePath attemptId).Uses (About paths) :=
  bind
    (transitionStagedApplyAttempt_uses_of (about_of_none rfl) (about_of_some rfl holds))
    fun _ => bind (op (about_of_some rfl holds)) fun file =>
      unlinkQuarantinedMarker_uses holds file

theorem saveEntriesAs_uses {statePath : StatePath} (holds : paths statePath) (entries : Entries)
    (format : SnapshotFormat) : (saveEntriesAs statePath entries format).Uses (About paths) :=
  bind (op (about_of_none rfl)) fun _ => op (about_of_some rfl holds)

theorem markApplyAttemptStateSave_uses {statePath : StatePath}
    (holds : paths (applyAttemptPath statePath)) (side : String) (base : Path)
    (actions : Actions) (attemptId : Option String) :
    (markApplyAttemptStateSave side statePath base actions attemptId).Uses (About paths) := by
  refine bind (op (about_of_none rfl)) fun file => ?_
  split
  · split
    · exact transitionStagedApplyAttempt_uses_of (about_of_none rfl) (about_of_some rfl holds)
    · exact throw
  · split
    · exact transitionStagedApplyAttempt_uses_of (about_of_none rfl) (about_of_some rfl holds)
    · exact throw
  · exact op (about_of_some rfl holds)
  · exact op (about_of_some rfl holds)

end About

end Duet

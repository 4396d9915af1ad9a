import Duet.Rpc.Session

/-!
# Calls that are no part of the staged apply

A relation that handlers keep is composed along the handler (`Handler.Within`). The calls
outside the staged apply leave its state alone (`Bystander`). Most of them also leave the
baseline of the session alone (`SameBaseline`), and none of them removes a recovery marker
of a staged attempt, but for the state saves and the explicit clear.
-/

namespace Duet

open Lib Marker

namespace Handler

variable {α β : Type} {R R' : Session → Session → Prop}

/-- From any session, the handler ends in a session related by `R`. -/
def Within (R : Session → Session → Prop) (handler : Handler α) : Prop :=
  ∀ s : Session, alone.wp (handler.run s.server) (fun out host => R s ⟨out.2, host⟩) s.host

section Rules

variable (refl : ∀ s, R s s)
include refl

theorem Within.pure {value : α} : (Pure.pure value : Handler α).Within R := refl

theorem Within.fail {error : Report} : (Handler.fail error : Handler α).Within R := refl

theorem Within.session : Handler.session.Within R := refl

end Rules

theorem Within.update {f : DuetServerImpl → DuetServerImpl}
    (related : ∀ server host, R ⟨server, host⟩ ⟨f server, host⟩) : (Handler.update f).Within R :=
  fun s => related s.server s.host

theorem Within.call {m : HostM α}
    (related : ∀ server host, alone.wp m.run (fun _ host' => R ⟨server, host⟩ ⟨server, host'⟩) host) :
    (Handler.call m).Within R :=
  fun s => wp_run_call.mpr (related s.server s.host)

/-- A handler whose rest may use the session that the first part ends in. -/
theorem Within.bind (trans : ∀ {s t u}, R s t → R t u → R s u) {first : Handler α}
    {rest : α → Handler β} (holds : first.Within R) (continues : ∀ value, (rest value).Within R) :
    (first >>= rest).Within R := by
  intro s
  refine wp_run_bind.mpr (Contract.wp_mono (holds s) fun out host related => ?_)
  rcases out with ⟨error | value, server⟩
  · exact related
  · exact Contract.wp_mono (continues value ⟨server, host⟩) fun out' host' next =>
      trans related next

theorem Within.mono {handler : Handler α} (holds : handler.Within R)
    (weaker : ∀ s t, R s t → R' s t) : handler.Within R' :=
  fun s => Contract.wp_mono (holds s) fun _ _ related => weaker _ _ related

end Handler

/-! ## Bystanders -/

/-- The state of the staged apply and what it needs on the host are as before. -/
structure Bystander (s s' : Session) : Prop where
  stagedApply : s'.server.stagedApply = s.server.stagedApply
  kept : s.host.Kept s'.host

/-- The baseline of the session is as before, too. -/
structure SameBaseline (s s' : Session) : Prop extends Bystander s s' where
  allOld : s'.server.allOld = s.server.allOld

theorem Bystander.refl (s : Session) : Bystander s s := ⟨rfl, .refl _⟩

theorem Bystander.trans {s t u : Session} (first : Bystander s t) (second : Bystander t u) :
    Bystander s u :=
  ⟨second.stagedApply.trans first.stagedApply, first.kept.trans second.kept⟩

theorem SameBaseline.refl (s : Session) : SameBaseline s s := ⟨.refl s, rfl⟩

theorem SameBaseline.trans {s t u : Session} (first : SameBaseline s t)
    (second : SameBaseline t u) : SameBaseline s u :=
  ⟨first.toBystander.trans second.toBystander, second.allOld.trans first.allOld⟩

section Rules

variable {α β : Type}

theorem quiet_pure {value : α} : (pure value : Handler α).Within SameBaseline :=
  Handler.Within.pure .refl

theorem quiet_fail {error : Report} : (Handler.fail error : Handler α).Within SameBaseline :=
  Handler.Within.fail .refl

theorem quiet_session : Handler.session.Within SameBaseline := Handler.Within.session .refl

theorem quiet_bind {first : Handler α} {rest : α → Handler β} (holds : first.Within SameBaseline)
    (continues : ∀ value, (rest value).Within SameBaseline) :
    (first >>= rest).Within SameBaseline :=
  .bind .trans holds continues

theorem quiet_call {m : HostM α} (kept : ∀ host, alone.wp m.run (fun _ h => host.Kept h) host) :
    (Handler.call m).Within SameBaseline :=
  .call fun _ host => Contract.wp_mono (kept host) fun _ _ kept => ⟨⟨rfl, kept⟩, rfl⟩

theorem quiet_careful {m : HostM α} (uses : m.Uses HostOp.Careful) :
    (Handler.call m).Within SameBaseline :=
  quiet_call (wp_of_careful uses)

theorem quiet_check (what : HostCheck) : (Handler.call (host (.check what))).Within SameBaseline :=
  quiet_careful (check_uses what)

theorem loud_bind {first : Handler α} {rest : α → Handler β} (holds : first.Within Bystander)
    (continues : ∀ value, (rest value).Within Bystander) : (first >>= rest).Within Bystander :=
  .bind .trans holds continues

theorem loud_of_quiet {handler : Handler α} (quiet : handler.Within SameBaseline) :
    handler.Within Bystander :=
  quiet.mono fun _ _ same => same.toBystander

theorem loud_update {f : DuetServerImpl → DuetServerImpl}
    (same : ∀ server, (f server).stagedApply = server.stagedApply) :
    (Handler.update f).Within Bystander :=
  .update fun server _ => ⟨same server, .refl _⟩

end Rules

/-! ## The calls -/

theorem initializedRemoteState_quiet : initializedRemoteState.Within SameBaseline := by
  refine quiet_bind quiet_session fun self => ?_
  split_ifs
  · exact quiet_fail
  · exact quiet_fail
  · exact quiet_pure

theorem remoteStateForId_quiet (remoteId : String) :
    (remoteStateForId remoteId).Within SameBaseline := by
  refine quiet_bind quiet_session fun self => ?_
  split_ifs
  · exact quiet_fail
  · exact quiet_pure

theorem acceptedActions_quiet : acceptedActions.Within SameBaseline := by
  refine quiet_bind quiet_session fun self => ?_
  split_ifs
  · exact quiet_fail
  · exact quiet_pure

theorem setActionsInternal_quiet (actions : Actions) :
    (setActionsInternal actions).Within SameBaseline :=
  quiet_bind (.update fun _ _ => ⟨⟨rfl, .refl _⟩, rfl⟩) fun _ =>
    quiet_bind (quiet_check _) fun _ => quiet_bind initializedRemoteState_quiet fun _ =>
    quiet_bind (quiet_check _) fun _ => quiet_bind quiet_session fun _ =>
    quiet_bind (quiet_check _) fun _ => .update fun _ _ => ⟨⟨rfl, .refl _⟩, rfl⟩

theorem setActionsV2_quiet (actions : Actions) : (setActionsV2 actions).Within SameBaseline :=
  quiet_bind (quiet_check _) fun _ => setActionsInternal_quiet actions

theorem prepareApplyAttempt_quiet (attemptId : Option String) :
    (prepareApplyAttempt attemptId).Within SameBaseline :=
  quiet_bind initializedRemoteState_quiet fun _ => quiet_bind acceptedActions_quiet fun _ =>
    quiet_bind quiet_session fun _ => quiet_bind (quiet_careful (startApplyAttempt_uses _ _ _ _ _))
    fun _ => .update fun _ _ => ⟨⟨rfl, .refl _⟩, rfl⟩

theorem prepareApplyAttemptWithId_quiet (attemptId : String) :
    (prepareApplyAttemptWithId attemptId).Within SameBaseline := by
  unfold prepareApplyAttemptWithId
  split_ifs
  · exact quiet_fail
  · exact prepareApplyAttempt_quiet _

theorem startUnstagedApply_quiet : startUnstagedApply.Within SameBaseline :=
  quiet_bind initializedRemoteState_quiet fun _ => quiet_bind acceptedActions_quiet fun _ =>
    quiet_bind quiet_session fun _ => quiet_bind (quiet_check _) fun _ =>
    quiet_bind (quiet_careful (startApplyAttempt_uses _ _ _ _ _)) fun _ => quiet_pure

theorem markUnstagedStateSave_quiet (remoteState : StatePath) :
    (markUnstagedStateSave remoteState).Within SameBaseline :=
  quiet_bind quiet_session fun _ => quiet_call (markApplyAttemptStateSave_kept _ _ _ _ _)

theorem insertStream_quiet (stream : ApplyStream) : (insertStream stream).Within SameBaseline :=
  quiet_bind quiet_session fun _ =>
    quiet_bind (.update fun _ _ => ⟨⟨rfl, .refl _⟩, rfl⟩) fun _ => quiet_pure

theorem findStream_quiet (streamId : Nat) : (findStream streamId).Within SameBaseline := by
  refine quiet_bind quiet_session fun self => ?_
  split
  · exact quiet_pure
  · exact quiet_fail

theorem removeStream_quiet (streamId : Nat) : (removeStream streamId).Within SameBaseline :=
  .update fun _ _ => ⟨⟨rfl, .refl _⟩, rfl⟩

theorem replaceStream_quiet (streamId : Nat) (stream : ApplyStream) :
    (replaceStream streamId stream).Within SameBaseline :=
  .update fun _ _ => ⟨⟨rfl, .refl _⟩, rfl⟩

theorem beginApplyStream_quiet : beginApplyStream.Within SameBaseline :=
  quiet_bind startUnstagedApply_quiet fun _ => quiet_bind quiet_session fun _ =>
    insertStream_quiet _

theorem applyDetailChunk_quiet (streamId : Nat) :
    (applyDetailChunk streamId).Within SameBaseline := by
  refine quiet_bind (findStream_quiet streamId) fun stream => quiet_bind ?_ fun out => ?_
  · intro s
    have framed : alone.wp stream.applier.applyFrame (fun _ host => s.host.Kept host) s.host :=
      Contract.wp_of_uses (P := s.host.Kept) stream.applier.applyFrame_uses alone_stable
        (fun _ _ _ _ careful run kept => ⟨trivial, kept.trans (.of_careful careful run)⟩)
        (.refl s.host)
    exact Contract.wp_bind.mpr (Contract.wp_mono framed fun _ _ kept => ⟨⟨rfl, kept⟩, rfl⟩)
  · rcases out with ⟨result, applier⟩
    refine quiet_bind (replaceStream_quiet _ _) fun _ => ?_
    cases result with
    | ok _ => exact quiet_pure
    | error error => exact quiet_fail

theorem applyDetailChunks_quiet (streamId frames : Nat) :
    (applyDetailChunks streamId frames).Within SameBaseline := by
  induction frames with
  | zero => exact quiet_bind (findStream_quiet streamId) fun _ => quiet_pure
  | succ frames ih => exact quiet_bind (applyDetailChunk_quiet streamId) fun _ => ih

theorem setBase_bystander (base : String) : (setBase base).Within Bystander :=
  loud_bind (loud_of_quiet (quiet_careful (.op (HostOp.careful_of_none trivial rfl))))
    fun _ => loud_update fun _ => rfl

theorem setRemoteStateDir_bystander (dir : Path) : (setRemoteStateDir dir).Within Bystander :=
  loud_update fun _ => rfl

theorem scanChanges_bystander (scope : ScanScope) (remoteId : String) :
    (scanChanges scope remoteId).Within Bystander := by
  refine loud_bind (loud_update fun _ => rfl) fun _ =>
    loud_bind (loud_of_quiet (quiet_check _)) fun _ => ?_
  split_ifs
  · exact loud_of_quiet quiet_fail
  · refine loud_bind (loud_update fun _ => rfl) fun _ => loud_bind (loud_of_quiet quiet_session)
      fun _ => loud_bind (loud_of_quiet (quiet_careful (checkApplyAttemptClear_uses _))) fun _ =>
      loud_bind (loud_of_quiet (quiet_careful (.op (HostOp.careful_of_none trivial rfl))))
      fun context => loud_bind (loud_update fun _ => rfl) fun _ => loud_of_quiet quiet_pure

theorem prepareMigrationV2_bystander : prepareMigrationV2.Within Bystander :=
  loud_bind (loud_of_quiet initializedRemoteState_quiet) fun _ => loud_update fun _ => rfl

theorem applyDetails_bystander : applyDetails.Within Bystander :=
  loud_bind (loud_of_quiet startUnstagedApply_quiet) fun _ =>
    loud_bind (loud_of_quiet quiet_session) fun _ =>
    loud_bind (loud_of_quiet (quiet_careful (applyDetailedChanges_uses _ _))) fun _ =>
    loud_bind (loud_update fun _ => rfl) fun _ => loud_of_quiet (markUnstagedStateSave_quiet _)

theorem finishApplyStream_bystander (streamId : Nat) :
    (finishApplyStream streamId).Within Bystander := by
  refine loud_bind (loud_of_quiet (findStream_quiet streamId)) fun stream => ?_
  cases stream with
  | staged applier => exact loud_of_quiet quiet_fail
  | legacy applier =>
    exact loud_bind (loud_of_quiet (removeStream_quiet streamId)) fun _ =>
      loud_bind (loud_of_quiet (quiet_careful applier.finish_uses)) fun _ =>
      loud_bind (loud_update fun _ => rfl) fun _ => loud_bind (loud_of_quiet quiet_session)
      fun _ => loud_of_quiet (markUnstagedStateSave_quiet _)

end Duet

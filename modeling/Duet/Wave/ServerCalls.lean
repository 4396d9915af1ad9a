import Duet.Wave.HostCalls

/-!
# The calls of a wave in the server

What the server does for its client in the course of a wave: the session knows the attempt and
the streams of it (`DuetServerImpl.Preparing`, `DuetServerImpl.Prepared`), every operation on the
host keeps the stage of the wave, and a call that reports an error leaves an attempt that can be
aborted as long as nothing is committed.
-/

namespace Duet

open Lib Marker

/-! ## Rules -/

namespace Handler

variable {α β : Type} {C : Contract hostEffects Host} {h : Host} {server : DuetServerImpl}
  {Q : Except Report β × DuetServerImpl → Host → Prop}

/-- A call on the host, then the rest of the handler when it succeeds. -/
theorem wp_call_then {m : HostM α} {f : α → Handler β} {P : Except Report α → Host → Prop}
    (holds : C.wp m.run P h) (failed : ∀ error h', P (.error error) h' → Q (.error error, server) h')
    (continues : ∀ value h', P (.ok value) h' → C.wp ((f value).run server) Q h') :
    C.wp ((call m >>= f).run server) Q h := by
  rw [wp_run_bind, wp_run_call]
  refine Contract.wp_mono holds fun result h' outcome => ?_
  cases result with
  | ok value => exact continues value h' outcome
  | error error => exact failed error h' outcome

theorem wp_session_then {f : DuetServerImpl → Handler β} (continues : C.wp ((f server).run server) Q h) :
    C.wp ((session >>= f).run server) Q h :=
  wp_run_bind.mpr continues

theorem wp_update_then {f : DuetServerImpl → DuetServerImpl} {rest : Unit → Handler β}
    (continues : C.wp ((rest ()).run (f server)) Q h) :
    C.wp ((update f >>= rest).run server) Q h :=
  wp_run_bind.mpr continues

theorem wp_initializedRemoteState_then {f : StatePath → Handler β}
    (failed : ∀ error, Q (.error error, server) h)
    (continues : C.wp ((f server.remoteState).run server) Q h) :
    C.wp ((initializedRemoteState >>= f).run server) Q h := by
  unfold initializedRemoteState
  rw [wp_run_bind]
  refine wp_session_then ?_
  split_ifs
  · exact failed _
  · exact failed _
  · exact continues

theorem wp_acceptedActions_then {f : Unit → Handler β} (failed : ∀ error, Q (.error error, server) h)
    (continues : C.wp ((f ()).run server) Q h) :
    C.wp ((acceptedActions >>= f).run server) Q h := by
  unfold acceptedActions
  rw [wp_run_bind]
  refine wp_session_then ?_
  split_ifs
  · exact failed _
  · exact continues

/-- A reply that only says that the call succeeded. -/
theorem wp_reply {handler : Handler α} {f : α → Reply}
    {Q : Except Report Reply × DuetServerImpl → Host → Prop}
    (holds : C.wp (handler.run server) (fun out h' => Q (out.1.map f, out.2) h') h) :
    C.wp ((do let value ← handler; return f value : Handler Reply).run server) Q h := by
  rw [wp_run_bind]
  refine Contract.wp_mono holds fun out h' outcome => ?_
  rcases out with ⟨error | value, server'⟩ <;> exact outcome

end Handler

/-! ## Calls that read -/

/-- The session works on the same state file, and on the same attempt. -/
structure DuetServerImpl.SameState (before after : DuetServerImpl) : Prop where
  stagedApply : after.stagedApply = before.stagedApply
  remoteStateDir : after.remoteStateDir = before.remoteStateDir
  remoteId : after.remoteId = before.remoteId

theorem DuetServerImpl.SameState.refl (server : DuetServerImpl) : server.SameState server :=
  ⟨rfl, rfl, rfl⟩

theorem DuetServerImpl.SameState.trans {s t u : DuetServerImpl} (first : s.SameState t)
    (second : t.SameState u) : s.SameState u :=
  ⟨second.stagedApply.trans first.stagedApply, second.remoteStateDir.trans first.remoteStateDir,
    second.remoteId.trans first.remoteId⟩

theorem DuetServerImpl.SameState.remoteState {s t : DuetServerImpl} (same : s.SameState t) :
    t.remoteState = s.remoteState := by
  simp only [DuetServerImpl.remoteState, same.remoteStateDir, same.remoteId]

namespace Handler

variable {α β : Type}

/-- The handler reads the host only, and the session stays on its state file. -/
def Still (handler : Handler α) : Prop :=
  ∀ (I : Host → Prop) (server : DuetServerImpl) (h : Host), I h →
    (Contract.keeping Host.exec I).wp (handler.run server)
      (fun out h' => h' = h ∧ server.SameState out.2) h

theorem Still.pure {value : α} : (Pure.pure value : Handler α).Still :=
  fun _ server _ _ => ⟨rfl, .refl server⟩

theorem Still.fail {error : Report} : (Handler.fail error : Handler α).Still :=
  fun _ server _ _ => ⟨rfl, .refl server⟩

theorem Still.session : Handler.session.Still := fun _ server _ _ => ⟨rfl, .refl server⟩

theorem Still.update {f : DuetServerImpl → DuetServerImpl}
    (same : ∀ server : DuetServerImpl, server.SameState (f server)) :
    (Handler.update f).Still :=
  fun _ server _ _ => ⟨rfl, same server⟩

theorem Still.call {m : HostM α} (uses : m.Uses HostOp.ReadOnly) : (Handler.call m).Still :=
  fun _ server _ start => wp_run_call.mpr
    (Contract.wp_mono (readOnly_keeping uses start) fun _ _ same => ⟨same, .refl server⟩)

theorem Still.bind {first : Handler α} {rest : α → Handler β} (holds : first.Still)
    (continues : ∀ value, (rest value).Still) : (first >>= rest).Still := by
  intro I server h start
  refine wp_run_bind.mpr (Contract.wp_mono (holds I server h start) fun out h' outcome => ?_)
  rcases out with ⟨error | value, server'⟩
  · exact outcome
  · obtain ⟨rfl, same⟩ := outcome
    exact Contract.wp_mono (continues value I server' h' start)
      fun _ _ next => ⟨next.1, same.trans next.2⟩

end Handler

theorem check_still (what : HostCheck) : (Handler.call (host (.check what))).Still :=
  .call (check_readOnly what)

theorem initializedRemoteState_still : initializedRemoteState.Still := by
  refine .bind .session fun self => ?_
  split_ifs
  · exact .fail
  · exact .fail
  · exact .pure

theorem setActionsInternal_still (actions : Actions) : (setActionsInternal actions).Still :=
  .bind (.update fun _ => ⟨rfl, rfl, rfl⟩) fun _ => .bind (check_still _) fun _ =>
    .bind initializedRemoteState_still fun _ => .bind (check_still _) fun _ =>
    .bind .session fun _ => .bind (check_still _) fun _ => .update fun _ => ⟨rfl, rfl, rfl⟩

/-- The calls by which the client asks and sets up a session. -/
inductive Request.Asks : Request → Prop where
  | setBase (base : String) : Asks (.setBase base)
  | prepareMigrationV2 : Asks .prepareMigrationV2
  | setActions (actions : Actions) : Asks (.setActions actions)
  | setActionsV2 (actions : Actions) : Asks (.setActionsV2 actions)
  | query : Asks .query

theorem Request.Asks.still {request : Request} (asks : request.Asks) : (serve request).Still := by
  cases asks with
  | setBase base =>
    have reads : (host (.full base)).Uses HostOp.ReadOnly :=
      HostM.Uses.op ⟨rfl, trivial, nofun, nofun⟩
    exact .bind (.bind (.call reads) fun _ => .update fun _ => ⟨rfl, rfl, rfl⟩) fun _ => .pure
  | prepareMigrationV2 =>
    exact .bind (.bind initializedRemoteState_still fun _ => .update fun _ => ⟨rfl, rfl, rfl⟩)
      fun _ => .pure
  | setActions actions => exact .bind (setActionsInternal_still actions) fun _ => .pure
  | setActionsV2 actions =>
    exact .bind (.bind (check_still _) fun _ => setActionsInternal_still actions) fun _ => .pure
  | query => exact .bind (check_still _) fun _ => .pure

/-- A query leaves the session as it is. -/
theorem query_call {I : Host → Prop} {server : DuetServerImpl} {h : Host} (start : I h) :
    (Contract.keeping Host.exec I).wp ((serve .query).run server)
      (fun out h' => h' = h ∧ out.2 = server) h :=
  Handler.wp_call_then (readOnly_keeping (check_readOnly .query) start)
    (fun _ _ same => ⟨same, rfl⟩) fun _ _ same => ⟨same, rfl⟩

/-- The server scans only a host without a marker. -/
theorem scanChanges_call {I : Host → Prop} (scope : ScanScope) (remoteId : String)
    {server : DuetServerImpl} {h : Host} (start : I h) :
    (Contract.keeping Host.exec I).wp ((scanChanges scope remoteId).run server)
      (fun out h' => h' = h ∧ out.2.stagedApply = server.stagedApply ∧ ∀ value, out.1 = .ok value →
        out.2.remoteState = remoteStateIn server.remoteStateDir remoteId ∧
        h.files (applyAttemptPath (remoteStateIn server.remoteStateDir remoteId)) = none) h := by
  refine Handler.wp_update_then (Handler.wp_call_then (readOnly_keeping (check_readOnly _) start)
    (fun _ _ same => ⟨same, rfl, nofun⟩) fun _ h₁ same => ?_)
  subst same
  split_ifs
  · exact ⟨rfl, rfl, nofun⟩
  · refine Handler.wp_update_then (Handler.wp_session_then ?_)
    have absent : alone.wp
        (checkApplyAttemptClear (remoteStateIn server.remoteStateDir remoteId)).run _ h₁ :=
      checkApplyAttemptClear_absent
    have checked := @Contract.keeping_and _ _ _ _ I (fun _ => True) _ _ _ _
      (readOnly_keeping (checkApplyAttemptClear_readOnly
        (remoteStateIn server.remoteStateDir remoteId)) start) absent
    refine Handler.wp_call_then (Contract.keeping_mono checked (fun _ kept => kept.1)
      fun _ _ kept => kept) (fun _ _ outcome => ⟨outcome.1, rfl, nofun⟩) fun _ h₂ outcome => ?_
    obtain ⟨rfl, absent⟩ := outcome
    have scan : (host (.scan server.base (remoteStateIn server.remoteStateDir remoteId))).Uses
        HostOp.ReadOnly := HostM.Uses.op ⟨rfl, trivial, nofun, nofun⟩
    refine Handler.wp_call_then (readOnly_keeping scan start)
      (fun _ _ same => ⟨same, rfl, nofun⟩) fun context h₃ same => ?_
    subst same
    exact Handler.wp_update_then ⟨rfl, rfl, fun _ _ => ⟨rfl, absent rfl⟩⟩

/-! ## The session in the course of a wave -/

namespace DuetServerImpl

variable (server : DuetServerImpl) (statePath : StatePath) (attemptId : String)

/-- No attempt is open. -/
structure Calm : Prop where
  path : server.remoteState = statePath
  stagedApply : server.stagedApply = none

/-- The attempt is open and has a stream that takes its frames. -/
structure Preparing (stream : Nat) : Prop where
  path : server.remoteState = statePath
  stagedApply : server.stagedApply = some (.preparing attemptId statePath (some stream))
  applier : ∃ applier, server.applyStreams.lookup stream = some (.staged applier) ∧
    applier.attemptState = some statePath ∧ applier.attemptId = some attemptId

/-- The attempt is prepared. -/
structure Prepared : Prop where
  path : server.remoteState = statePath
  stagedApply : ∃ prepared, server.stagedApply = some (.prepared attemptId statePath prepared) ∧
    prepared.inner.attemptState = some statePath ∧ prepared.inner.attemptId = some attemptId

/-- Nothing but the attempt has been begun, and nothing is committed. -/
inductive Abortable : Prop where
  | none (none : server.stagedApply = .none)
  | preparing (stream : Option Nat)
      (staged : server.stagedApply = some (.preparing attemptId statePath stream))
  | prepared (prepared : server.Prepared statePath attemptId)
  | aborted (staged : server.stagedApply = some (.aborted attemptId statePath))

/-- The attempt is committed with this manifest. -/
structure Committed (entries : Entries) (saved : Bool) : Prop where
  path : server.remoteState = statePath
  stagedApply : ∃ started, server.stagedApply = some (.committed attemptId statePath started saved)
  allOld : server.allOld = entries

variable {server statePath attemptId}

theorem Preparing.abortable {stream : Nat} (preparing : server.Preparing statePath attemptId stream) :
    server.Abortable statePath attemptId :=
  .preparing (some stream) preparing.stagedApply

end DuetServerImpl

section Calls

variable {server : DuetServerImpl} {h : Host} {statePath : StatePath} {attemptId : String}
  {file : Option HostFile} {tree : TargetTree} {wave stream : Nat} {entries : Entries}

theorem beginStagedApply_call (calm : server.Calm statePath) (start : h.Tidy statePath file tree wave) :
    (Contract.keeping Host.exec (·.Tidy statePath file tree wave)).wp
      ((beginStagedApply attemptId).run server)
      (fun out h' => h'.Tidy statePath file tree wave ∧ ∀ id, out.1 = .ok id →
        out.2.Preparing statePath attemptId id) h := by
  obtain ⟨rfl, none⟩ := calm
  unfold beginStagedApply
  split_ifs
  · exact ⟨start, nofun⟩
  · refine Handler.wp_initializedRemoteState_then (fun _ => ⟨start, nofun⟩)
      (Handler.wp_acceptedActions_then (fun _ => ⟨start, nofun⟩) (Handler.wp_session_then ?_))
    rw [none]
    refine Handler.wp_call_then (readOnly_keeping (check_readOnly _) start)
      (fun _ _ same => ⟨same ▸ start, nofun⟩) fun _ h₁ same₁ => ?_
    subst same₁
    refine Handler.wp_call_then (readOnly_keeping (check_readOnly _) start)
      (fun _ _ same => ⟨same ▸ start, nofun⟩) fun _ h₂ same₂ => ?_
    subst same₂
    refine Handler.wp_call_then (startStagedApplyAttempt_tidy "remote" server.base server.actions start)
      (fun _ _ kept => ⟨kept.1, nofun⟩) fun _ h₃ kept => ?_
    refine ⟨kept.1, fun id same => ?_⟩
    cases same
    exact ⟨rfl, rfl, _, List.lookup_cons_self, rfl, rfl⟩

theorem lookup_replaced {streams : List (Nat × ApplyStream)} {old new : ApplyStream}
    (found : streams.lookup stream = some old) :
    (streams.map fun entry => if entry.1 = stream then (stream, new) else entry).lookup stream =
      some new := by
  induction streams with
  | nil => cases found
  | cons entry rest ih =>
    obtain ⟨id, value⟩ := entry
    by_cases same : id = stream
    · subst same
      simp
    · have away : (stream == id) = false := beq_eq_false_iff_ne.mpr fun equal => same equal.symm
      rw [List.lookup_cons, away] at found
      simp only [List.map_cons, if_neg same, List.lookup_cons, away]
      exact ih found

theorem applyDetailChunk_call (preparing : server.Preparing statePath attemptId stream)
    (start : h.Tidy statePath file tree wave) :
    (Contract.keeping Host.exec (·.Tidy statePath file tree wave)).wp
      ((applyDetailChunk stream).run server)
      (fun out h' => h'.Tidy statePath file tree wave ∧ out.2.Preparing statePath attemptId stream) h := by
  obtain ⟨path, staged, applier, found, state, id⟩ := preparing
  unfold applyDetailChunk findStream
  rw [Handler.wp_run_bind, Handler.wp_run_bind]
  refine Handler.wp_session_then ?_
  rw [found]
  refine Handler.wp_run_bind.mpr (Contract.wp_bind.mpr ?_)
  refine Contract.wp_mono (applyFrame_tidy state start) fun out h₁ outcome => ?_
  obtain ⟨tidy, state₁, id₁⟩ := outcome
  rcases out with ⟨result, applier₁⟩
  refine Handler.wp_update_then ?_
  have kept : DuetServerImpl.Preparing { server with
      applyStreams := server.applyStreams.map fun old =>
        if old.1 = stream then (stream, .staged applier₁) else old } statePath attemptId stream :=
    ⟨path, staged, applier₁, lookup_replaced found, state₁, id₁.trans id⟩
  cases result with
  | ok _ => exact ⟨tidy, kept⟩
  | error _ => exact ⟨tidy, kept⟩

theorem applyDetailChunks_call (frames : Nat)
    (preparing : server.Preparing statePath attemptId stream) (start : h.Tidy statePath file tree wave) :
    (Contract.keeping Host.exec (·.Tidy statePath file tree wave)).wp
      ((applyDetailChunks stream frames).run server)
      (fun out h' => h'.Tidy statePath file tree wave ∧ out.2.Preparing statePath attemptId stream) h := by
  induction frames generalizing server h with
  | zero =>
    have known := preparing
    obtain ⟨-, -, applier, found, -, -⟩ := known
    unfold applyDetailChunks findStream
    rw [Handler.wp_run_bind, Handler.wp_run_bind]
    refine Handler.wp_session_then ?_
    rw [found]
    exact ⟨start, preparing⟩
  | succ frames ih =>
    unfold applyDetailChunks
    rw [Handler.wp_run_bind]
    refine Contract.wp_mono (applyDetailChunk_call preparing start) fun out h₁ outcome => ?_
    rcases out with ⟨error | value, server₁⟩
    · exact outcome
    · exact ih outcome.2 outcome.1

theorem finishStagedPrepareInner_call
    (preparing : server.Preparing statePath attemptId stream) (start : h.Tidy statePath file tree wave) :
    (Contract.keeping Host.exec (·.Tidy statePath file tree wave)).wp
      ((finishStagedPrepareInner stream attemptId).run server)
      (fun out h' => h'.Tidy statePath file tree wave ∧ out.2.Abortable statePath attemptId ∧
        (out.1 = .ok () → out.2.Prepared statePath attemptId ∧
          h'.Prepared statePath file tree wave attemptId)) h := by
  obtain ⟨path, staged, applier, found, state, id⟩ := preparing
  unfold finishStagedPrepareInner
  refine Handler.wp_session_then ?_
  rw [staged]
  dsimp only
  rw [if_neg (by simp), found]
  refine Handler.wp_update_then (Handler.wp_update_then ?_)
  refine Handler.wp_call_then (finishPreparation_tidy state id start)
    (fun _ _ kept => ⟨kept.1, .preparing none rfl, nofun⟩) fun prepared h₁ kept => ?_
  obtain ⟨tidy, outcome⟩ := kept
  obtain ⟨inner, ready⟩ := outcome prepared rfl
  have known : DuetServerImpl.Prepared { server with
      applyStreams := server.applyStreams.filter fun entry => entry.1 ≠ stream
      stagedApply := some (.prepared attemptId statePath prepared) } statePath attemptId :=
    ⟨path, prepared, rfl, inner ▸ state, inner ▸ id⟩
  exact ⟨tidy, .prepared known, fun _ => ⟨known, ready⟩⟩

theorem validateStagedApply_call (prepared : server.Prepared statePath attemptId)
    (start : h.Prepared statePath file tree wave attemptId) :
    (Contract.keeping Host.exec (·.Prepared statePath file tree wave attemptId)).wp
      ((validateStagedApply attemptId).run server)
      (fun out h' => h'.Prepared statePath file tree wave attemptId ∧ out.2 = server ∧
        (out.1 = .ok () → wave ∈ h'.validated)) h := by
  obtain ⟨path, applied, staged, state, id⟩ := prepared
  unfold validateStagedApply
  refine Handler.wp_session_then ?_
  rw [staged]
  dsimp only
  rw [if_neg (by simp)]
  refine Handler.wp_run_call.mpr (Contract.wp_mono (validateCommit_prepared applied start)
    fun result h₁ kept => ⟨kept.1, rfl, kept.2⟩)

theorem finishAbort_call (start : h.Untouched statePath file tree) :
    (Contract.keeping Host.exec (·.Untouched statePath file tree)).wp
      ((finishAbort attemptId statePath (abortStagedApplyAttempt statePath attemptId)).run server)
      (fun out h' => h'.Untouched statePath file tree ∧ out.2.Abortable statePath attemptId ∧
        (out.1 = .ok () → h'.files (applyAttemptPath statePath) = none)) h := by
  unfold finishAbort
  refine Handler.wp_run_bind.mpr (Handler.wp_run_attempt.mpr (Contract.wp_mono
    (abortStagedApplyAttempt_untouched start) fun result h₁ kept => ?_))
  cases result with
  | error error => exact ⟨kept.1, .preparing none rfl, nofun⟩
  | ok _ => exact ⟨kept.1, .aborted rfl, fun _ => kept.2 rfl⟩

/-- An attempt that is aborted once more. -/
theorem abortStagedApply_call (abortable : server.Abortable statePath attemptId)
    (start : h.Untouched statePath file tree) :
    (Contract.keeping Host.exec (·.Untouched statePath file tree)).wp
      ((abortStagedApply attemptId).run server)
      (fun out h' => h'.Untouched statePath file tree ∧ out.2.Abortable statePath attemptId ∧
        (out.1 = .ok () → h'.files (applyAttemptPath statePath) = none)) h := by
  unfold abortStagedApply
  refine Handler.wp_session_then ?_
  cases abortable with
  | none none =>
    rw [none]
    exact ⟨start, .none none, nofun⟩
  | preparing stream staged =>
    rw [staged]
    dsimp only
    rw [if_neg (by simp)]
    cases stream with
    | none => exact finishAbort_call start
    | some stream => exact Handler.wp_update_then (finishAbort_call start)
  | prepared prepared =>
    obtain ⟨path, prepared, staged, state, id⟩ := prepared
    rw [staged]
    dsimp only
    rw [if_neg (by simp), PreparedApply.abort, state, id]
    exact finishAbort_call start
  | aborted staged =>
    rw [staged]
    dsimp only
    rw [if_neg (by simp)]
    have absent : alone.wp (describeApplyAttempt statePath).run _ h := describeApplyAttempt_absent
    have read := @Contract.keeping_and _ _ _ _ (·.Untouched statePath file tree) (fun _ => True)
      _ _ _ _ (readOnly_keeping (describeApplyAttempt_readOnly statePath) start) absent
    refine Handler.wp_run_bind.mpr (Handler.wp_run_attempt.mpr (Contract.wp_mono
      (Contract.keeping_mono read (fun _ kept => kept.1) fun _ _ kept => kept)
      fun result h₁ outcome => ?_))
    obtain ⟨rfl, absent⟩ := outcome
    rcases result with error | marker
    · exact ⟨start, .none rfl, nofun⟩
    · cases marker with
      | some marker => exact ⟨start, .aborted staged, nofun⟩
      | none => exact ⟨start, .aborted staged, fun _ => absent rfl⟩

theorem commitStagedApplyInner_call (prepared : server.Prepared statePath attemptId)
    (start : h.Committing statePath wave attemptId) :
    (Contract.keeping Host.exec (·.Committing statePath wave attemptId)).wp
      ((commitStagedApplyInner attemptId).run server)
      (fun out h' => h'.Committing statePath wave attemptId ∧ (out.1 = .ok () → ∃ entries,
        out.2.Committed statePath attemptId entries false ∧
        h'.Committed statePath wave attemptId entries)) h := by
  obtain ⟨path, applied, staged, state, id⟩ := prepared
  unfold commitStagedApplyInner
  refine Handler.wp_session_then ?_
  rw [staged]
  dsimp only
  rw [if_neg (by simp)]
  refine Handler.wp_update_then (Handler.wp_call_then (commitProfiled_committing applied start)
    (fun _ _ kept => ⟨kept.1, nofun⟩) fun entries h₁ kept => ?_)
  exact Handler.wp_update_then ⟨kept.1, fun _ => ⟨entries, ⟨path, ⟨false, rfl⟩, rfl⟩, kept.2 _ rfl⟩⟩

theorem saveStagedStatePendingInner_call (strong : Bool)
    (committed : server.Committed statePath attemptId entries false)
    (start : h.Committed statePath wave attemptId entries) :
    (Contract.keeping Host.exec (·.Committed statePath wave attemptId entries)).wp
      ((saveStagedStatePendingInner attemptId strong).run server)
      (fun out h' => h'.Committed statePath wave attemptId entries ∧ (out.1 = .ok () →
        out.2.Committed statePath attemptId entries true ∧ h'.Saved statePath wave attemptId)) h := by
  obtain ⟨path, ⟨started, staged⟩, rfl⟩ := committed
  unfold saveStagedStatePendingInner
  refine Handler.wp_session_then ?_
  rw [staged]
  dsimp only
  rw [if_neg (by simp), if_neg (by simp)]
  have saves : ∀ (server' : DuetServerImpl) (g : Host), server'.remoteState = statePath →
      server'.allOld = server.allOld → g.Committed statePath wave attemptId server.allOld →
      (Contract.keeping Host.exec (·.Committed statePath wave attemptId server.allOld)).wp
        (Handler.run (do
          Handler.call (saveEntriesAs statePath server.allOld (snapshotFormat strong))
          setStaged (some (.committed attemptId statePath true true))) server')
        (fun out h' => h'.Committed statePath wave attemptId server.allOld ∧ (out.1 = .ok () →
          out.2.Committed statePath attemptId server.allOld true ∧
          h'.Saved statePath wave attemptId)) g := by
    intro server' g samePath sameOld ready
    refine Handler.wp_call_then (saveEntriesAs_committed _ ready)
      (fun _ _ kept => ⟨kept.1, nofun⟩) fun _ h₁ kept => ?_
    exact ⟨kept.1, fun _ => ⟨⟨samePath, ⟨true, rfl⟩, sameOld⟩, kept.2 rfl⟩⟩
  unfold startStateSave
  split_ifs
  · exact saves server h path rfl start
  · rw [Handler.wp_run_bind]
    refine Handler.wp_call_then (markStateSave_committed start)
      (fun _ _ kept => ⟨kept.1, nofun⟩) fun _ h₁ kept => ?_
    exact saves _ h₁ path rfl kept.1

theorem completeStagedApplyInner_call (committed : server.Committed statePath attemptId entries true)
    (start : h.Saved statePath wave attemptId) (aside : h.quarantined = []) :
    (Contract.keeping Host.exec (·.Saved statePath wave attemptId)).wp
      ((completeStagedApplyInner attemptId).run server)
      (fun out h' => h'.Saved statePath wave attemptId ∧ (out.1 = .ok () →
        out.2.Calm statePath ∧ h'.files (applyAttemptPath statePath) = none ∧
        h'.quarantined = [])) h := by
  obtain ⟨path, ⟨started, staged⟩, -⟩ := committed
  unfold completeStagedApplyInner
  refine Handler.wp_session_then ?_
  rw [staged]
  dsimp only
  rw [if_neg (by simp)]
  refine Handler.wp_call_then (finishStagedApplyAttempt_saved start aside)
    (fun _ _ kept => ⟨kept.1, nofun⟩) fun _ h₁ kept => ?_
  exact ⟨kept.1, fun _ => ⟨⟨path, rfl⟩, kept.2 rfl⟩⟩

end Calls

end Duet

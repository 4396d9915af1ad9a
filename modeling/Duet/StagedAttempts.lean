import Duet.Rpc.StagedCalls

/-!
# Staged attempts under any order of calls

A client may call the server in any order and with any arguments. The record of a run says
which attempt has begun, which manifest its commit produced and whether a call has replaced
the baseline or taken the marker away since then. A call that was refused, or that left the
baseline or the marker as it was, changes nothing in the record. The session and the host
agree with the record in every run (`Session.Run.tracks`).
-/

namespace Duet

open Lib Marker

/-! ## The record of a run -/

structure AttemptRecord where
  attemptId : String
  statePath : StatePath
  produced : Option Entries
  saved : Bool
  baselineKept : Bool
  markerKept : Bool

/-- The calls that may replace the baseline of the session. -/
def Request.replacesBaseline : Request → Bool
  | .setBase _ | .setRemoteStateDir _ | .changes _ _ | .changesScope _ _ | .prepareMigrationV2
  | .applyDetailedChanges | .finishApplyStream _ => true
  | _ => false

/-- Whether the marker of the attempt is at its path, readable or torn. -/
def Host.isMarked (h : Host) (statePath : StatePath) (attemptId : String) : Bool :=
  match h.files (applyAttemptPath statePath) with
  | some (.stagedMarker _ id _ _) | some (.tornMarker id) => id = attemptId
  | _ => false

theorem Host.isMarked_iff {h : Host} {statePath : StatePath} {attemptId : String} :
    h.isMarked statePath attemptId ↔ h.Marked statePath attemptId := by
  unfold isMarked Marked
  split
  next header id phase records found =>
    simp only [found, decide_eq_true_eq]
    constructor
    · rintro rfl
      exact .inl ⟨header, phase, records, rfl⟩
    · rintro (⟨_, _, _, same⟩ | same)
      · cases same
        rfl
      · cases same
  next id found => simp [found]
  next unstaged untorn =>
    refine ⟨nofun, ?_⟩
    rintro (⟨header, phase, records, found⟩ | found)
    · exact absurd found (unstaged header attemptId phase records)
    · exact absurd found (untorn attemptId)

/-- Whether the staged apply has come so far that an abort of the attempt goes for its
marker. -/
def DuetServerImpl.goesToAbort (self : DuetServerImpl) (attemptId : String) : Bool :=
  match self.stagedApply with
  | some (.preparing activeId _ _) | some (.prepared activeId _ _) => activeId = attemptId
  | _ => false

/-- Whether the staged apply has come so far that its completion goes for its marker. -/
def DuetServerImpl.goesToComplete (self : DuetServerImpl) (attemptId : String) : Bool :=
  match self.stagedApply with
  | some (.committed activeId _ _ saved) => activeId = attemptId && saved
  | _ => false

/-- The calls that may remove or overwrite the marker of an attempt with this state path. An
abort or a completion in another phase is refused before it gets to the marker. -/
def Request.removesMarker (server : DuetServerImpl) (attemptId : String)
    (statePath : StatePath) : Request → Bool
  | .clearApplyAttempt remoteId => remoteStateIn server.remoteStateDir remoteId = statePath
  | .saveState | .saveStateV2 =>
    server.remoteState = statePath ∨ server.remoteState = applyAttemptPath statePath
  | .saveStatePending _ => server.remoteState = applyAttemptPath statePath
  | .abortStagedApply id => id = attemptId && server.goesToAbort attemptId
  | .completeStagedApply id => id = attemptId && server.goesToComplete attemptId
  | _ => false

namespace AttemptRecord

def disturb (record : AttemptRecord) (baseline marker : Bool) : AttemptRecord :=
  { record with
    baselineKept := record.baselineKept && !baseline
    markerKept := record.markerKept && !marker }

/-- The record after a call that says nothing else about the attempt. A call that left the
baseline or the marker in place has not disturbed it. -/
def pass (record : AttemptRecord) (s : Session) (request : Request) (s' : Session) :
    AttemptRecord :=
  record.disturb (request.replacesBaseline && decide (s'.server.allOld ≠ s.server.allOld))
    (request.removesMarker s.server record.attemptId record.statePath &&
      !s'.host.isMarked record.statePath record.attemptId)

/-- The record after a commit that left a target tree with this manifest. -/
def commit (record : AttemptRecord) (manifest : Option Entries) : AttemptRecord :=
  { record with
    produced := manifest
    saved := false
    baselineKept := true }

def save (record : AttemptRecord) : AttemptRecord := { record with saved := true }

end AttemptRecord

/-- The record after a call with this result. -/
def observe (record : Option AttemptRecord) (s : Session) (request : Request)
    (result : Except Report Reply) (s' : Session) : Option AttemptRecord :=
  match request, result with
  | .beginStagedApply attemptId, .ok _ =>
    some ⟨attemptId, s.server.remoteState, none, false, true, true⟩
  | .abortStagedApply attemptId, .ok _ | .completeStagedApply attemptId, .ok _ =>
    record.filter fun record => record.attemptId ≠ attemptId
  | .commitStagedApply attemptId, .ok _ =>
    record.map fun record =>
      if record.attemptId = attemptId then record.commit s'.host.tree.manifest else record
  | .saveStagedStatePending attemptId _, .ok _ =>
    record.map fun record => if record.attemptId = attemptId then record.save else record
  | _, _ => record.map fun record => record.pass s request s'

/-- The calls that a new server serves, one after another, and their record. -/
inductive Session.Run : Session → Option AttemptRecord → Prop where
  | start (remoteStateDir : Path) (host : Host) : Run ⟨.new remoteStateDir, host⟩ none
  | call {s s' : Session} {record : Option AttemptRecord} {request : Request}
      {result : Except Report Reply} (run : Run s record) (called : s.Call request result s') :
      Run s' (observe record s request result s')

/-! ## What the session and the host say about the record -/

/-- No marker has the name of this state file. -/
def StatePath.Plain (statePath : StatePath) : Prop := ∀ state, statePath ≠ applyAttemptPath state

/-- The baseline of a committed attempt is what its commit produced, and so is the snapshot
that was saved of it. -/
structure KeepsProduct (s : Session) (record : AttemptRecord) (entries : Entries) : Prop where
  allOld : s.server.allOld = entries
  snapshot : record.saved → record.statePath.Plain →
    ∃ format, s.host.files record.statePath = some (.snapshot entries format)

structure Describes (s : Session) (record : AttemptRecord) : Prop where
  attempt : s.server.attempt = some (record.attemptId, record.statePath)
  marked : record.markerKept → s.host.Marked record.statePath record.attemptId
  committed : ∀ attemptId statePath started saved,
    s.server.stagedApply = some (.committed attemptId statePath started saved) →
    record.saved = saved ∧ ∃ entries, record.produced = some entries ∧
      (record.baselineKept → KeepsProduct s record entries)

/-- There is a record exactly while an attempt has begun and is not over. -/
def Tracks (s : Session) : Option AttemptRecord → Prop
  | none => s.server.attempt = none
  | some record => Describes s record

/-! ## Calls that leave the staged apply alone -/

section Pass

variable {s s' : Session} {record : AttemptRecord}

/-- A call that leaves the staged apply alone. What it does to the baseline and to the
marker is noted. -/
theorem Describes.disturb (described : Describes s record) {baseline marker : Bool}
    (stagedApply : s'.server.stagedApply = s.server.stagedApply)
    (allOld : baseline = false → s'.server.allOld = s.server.allOld)
    (marked : marker = false → s.host.Marked record.statePath record.attemptId →
      s'.host.Marked record.statePath record.attemptId)
    (snapshot : record.statePath.Plain → ∀ format,
      s.host.files record.statePath = some (.snapshot s.server.allOld format) →
      ∃ format', s'.host.files record.statePath = some (.snapshot s.server.allOld format')) :
    Describes s' (record.disturb baseline marker) where
  attempt := by
    have same : s'.server.attempt = s.server.attempt := by
      rw [DuetServerImpl.attempt, stagedApply, DuetServerImpl.attempt]
    exact same.trans described.attempt
  marked kept := by
    obtain ⟨before, untouched⟩ : record.markerKept = true ∧ marker = false := by
      simpa [AttemptRecord.disturb] using kept
    exact marked untouched (described.marked before)
  committed attemptId statePath started saved staged := by
    obtain ⟨same, entries, produced, keeps⟩ :=
      described.committed attemptId statePath started saved (stagedApply ▸ staged)
    refine ⟨same, entries, produced, fun kept => ?_⟩
    obtain ⟨before, untouched⟩ : record.baselineKept = true ∧ baseline = false := by
      simpa [AttemptRecord.disturb] using kept
    have product := keeps before
    refine ⟨(allOld untouched).trans product.allOld, fun written plain => ?_⟩
    obtain ⟨format, found⟩ := product.snapshot written plain
    have baseline := product.allOld
    subst baseline
    exact snapshot plain format found

/-- What the record notes of a call as undisturbed, the call could not touch or left alone. -/
theorem AttemptRecord.pass_baseline {request : Request}
    (unreplaced : (request.replacesBaseline &&
      decide (s'.server.allOld ≠ s.server.allOld)) = false)
    (allOld : request.replacesBaseline = false → s'.server.allOld = s.server.allOld) :
    s'.server.allOld = s.server.allOld := by
  rcases Bool.and_eq_false_iff.mp unreplaced with quiet | same
  · exact allOld quiet
  · exact not_not.mp (of_decide_eq_false same)

theorem AttemptRecord.pass_marker {request : Request}
    (untouched : (request.removesMarker s.server record.attemptId record.statePath &&
      !s'.host.isMarked record.statePath record.attemptId) = false)
    (marked : request.removesMarker s.server record.attemptId record.statePath = false →
      s'.host.Marked record.statePath record.attemptId) :
    s'.host.Marked record.statePath record.attemptId := by
  rcases Bool.and_eq_false_iff.mp untouched with spared | present
  · exact marked spared
  · exact Host.isMarked_iff.mp (by simpa using present)

theorem Bystander.describes (aside : Bystander s s') (described : Describes s record)
    {request : Request}
    (allOld : request.replacesBaseline = false → s'.server.allOld = s.server.allOld) :
    Describes s' (record.pass s request s') :=
  described.disturb aside.stagedApply
    (fun unreplaced => AttemptRecord.pass_baseline unreplaced allOld)
    (fun _ => aside.kept.marked _ _)
    fun plain format found => ⟨format, (aside.kept.files _ plain).trans found⟩

/-- A call that changes only files under other names. -/
theorem Describes.of_files (described : Describes s record) {request : Request}
    (server : s'.server = s.server)
    (markerFile : request.removesMarker s.server record.attemptId record.statePath = false →
      s'.host.files (applyAttemptPath record.statePath) =
        s.host.files (applyAttemptPath record.statePath))
    (stateFile : record.statePath.Plain →
      s'.host.files record.statePath = s.host.files record.statePath ∨
      ∃ format, s'.host.files record.statePath = some (.snapshot s.server.allOld format)) :
    Describes s' (record.pass s request s') := by
  refine described.disturb (by rw [server]) (fun _ => by rw [server])
    (fun untouched marked => AttemptRecord.pass_marker untouched fun spared =>
      marked.congr (markerFile spared)) fun plain format found => ?_
  rcases stateFile plain with same | written
  · exact ⟨format, same.trans found⟩
  · exact written

end Pass

/-! ## The calls outside the staged apply -/

/-- What a call with a reply does, from what its handler does. -/
theorem Session.call_post {α : Type} {s s' : Session} {handler : Handler α} {reply : α → Reply}
    {result : Except Report Reply} {Q : Except Report α × DuetServerImpl → Host → Prop}
    (called : Runs Host.exec ((handler >>= fun value => pure (reply value)).run s.server) s.host
      (result, s'.server) s'.host)
    (spec : alone.wp (handler.run s.server) Q s.host) :
    ∃ outcome, result = outcome.map reply ∧ Q (outcome, s'.server) s'.host := by
  have replied : alone.wp ((handler >>= fun value => pure (reply value)).run s.server)
      (fun out host => ∃ outcome, out.1 = outcome.map reply ∧ Q (outcome, out.2) host) s.host := by
    refine Handler.wp_run_bind.mpr (Contract.wp_mono spec fun out host holds => ?_)
    rcases out with ⟨error | value, server⟩
    · exact ⟨.error error, rfl, holds⟩
    · exact ⟨.ok value, rfl, holds⟩
  exact called.post (C := alone) (fun _ => rfl) replied

/-- The calls that have nothing to do with the staged apply. -/
def Request.isBystander : Request → Bool
  | .saveState | .saveStateV2 | .saveStatePending _ | .clearApplyAttempt _ | .beginStagedApply _
  | .finishStagedPrepare _ _ | .abortStagedApply _ | .commitStagedApply _
  | .saveStagedStatePending _ _ | .completeStagedApply _ => false
  | _ => true

/-- A bystander that replaces the baseline only when it says so. -/
def Aside (replaces : Bool) (s s' : Session) : Prop :=
  Bystander s s' ∧ (replaces = false → s'.server.allOld = s.server.allOld)

theorem aside_of_quiet {α : Type} {handler : Handler α} {reply : α → Reply}
    (quiet : handler.Within SameBaseline) :
    (handler >>= fun value => pure (reply value)).Within (Aside false) :=
  (quiet_bind quiet fun _ => quiet_pure).mono fun _ _ same => ⟨same.toBystander, fun _ => same.allOld⟩

theorem aside_of_loud {α : Type} {handler : Handler α} {reply : α → Reply}
    (loud : handler.Within Bystander) :
    (handler >>= fun value => pure (reply value)).Within (Aside true) :=
  (loud_bind loud fun _ => loud_of_quiet quiet_pure).mono fun _ _ aside => ⟨aside, nofun⟩

theorem serve_aside (request : Request) (bystander : request.isBystander) :
    (serve request).Within (Aside request.replacesBaseline) := by
  cases request with
  | setBase base => exact aside_of_loud (setBase_bystander base)
  | setRemoteStateDir dir => exact aside_of_loud (setRemoteStateDir_bystander dir)
  | changes restrict remoteId => exact aside_of_loud (scanChanges_bystander _ remoteId)
  | changesScope scope remoteId => exact aside_of_loud (scanChanges_bystander scope remoteId)
  | prepareMigrationV2 => exact aside_of_loud prepareMigrationV2_bystander
  | setActions actions => exact aside_of_quiet (setActionsInternal_quiet actions)
  | setActionsV2 actions => exact aside_of_quiet (setActionsV2_quiet actions)
  | applyDetailedChanges => exact aside_of_loud applyDetails_bystander
  | prepareApplyAttempt => exact aside_of_quiet (prepareApplyAttempt_quiet none)
  | prepareApplyAttemptWithId attemptId =>
    exact aside_of_quiet (prepareApplyAttemptWithId_quiet attemptId)
  | beginApplyStream => exact aside_of_quiet beginApplyStream_quiet
  | applyDetailChunk streamId => exact aside_of_quiet (applyDetailChunk_quiet streamId)
  | applyDetailChunks streamId frames => exact aside_of_quiet (applyDetailChunks_quiet streamId frames)
  | finishApplyStream streamId => exact aside_of_loud (finishApplyStream_bystander streamId)
  | describeApplyAttempt remoteId =>
    have described : (serve (.describeApplyAttempt remoteId)).Within SameBaseline :=
      quiet_bind (remoteStateForId_quiet remoteId) fun statePath =>
        quiet_bind (quiet_careful (describeApplyAttempt_uses statePath)) fun _ => quiet_pure
    exact described.mono fun _ _ same => ⟨same.toBystander, fun _ => same.allOld⟩
  | validateStagedApply attemptId => exact aside_of_quiet (validateStagedApply_quiet attemptId)
  | query => exact aside_of_quiet (quiet_check _)
  | saveState | saveStateV2 | saveStatePending _ | clearApplyAttempt _ | beginStagedApply _
  | finishStagedPrepare _ _ | abortStagedApply _ | commitStagedApply _
  | saveStagedStatePending _ _ | completeStagedApply _ => cases bystander

/-- A state save that an error may end anywhere has written the whole snapshot or none. -/
theorem saveEntriesAs_written (statePath : StatePath) (entries : Entries)
    (format : SnapshotFormat) (h : Host) :
    alone.wp (saveEntriesAs statePath entries format).run
      (fun _ h' => h'.files statePath = h.files statePath ∨
        h'.files statePath = some (.snapshot entries format)) h := by
  refine Contract.wp_run_bind.mpr (wp_alone_host.mpr fun reply h₁ checked => ?_)
  have same : h₁ = h := by cases Host.exec_effect checked; rfl
  subst same
  cases reply with
  | error error => exact .inl rfl
  | ok _ =>
    refine wp_alone_host.mpr fun reply h₂ saved => ?_
    cases Host.exec_effect saved with
    | none => exact .inl rfl
    | saved => exact .inr (by simp)

/-- What a state save outside the staged apply does to the files of its session. -/
structure SavesState (s s' : Session) (clearMarker : Bool) : Prop where
  server : s'.server = s.server
  others : ∀ path, path ≠ s.server.remoteState →
    (clearMarker = true → path ≠ applyAttemptPath s.server.remoteState) →
    s'.host.files path = s.host.files path
  snapshot : s'.host.files s.server.remoteState = s.host.files s.server.remoteState ∨
    ∃ format, s'.host.files s.server.remoteState = some (.snapshot s.server.allOld format)

theorem SavesState.refl (s : Session) (clearMarker : Bool) : SavesState s s clearMarker :=
  ⟨rfl, fun _ _ _ => rfl, .inl rfl⟩

theorem saveStateAs_spec (format : SnapshotFormat) (clearMarker : Bool) (s : Session) :
    alone.wp ((saveStateAs format clearMarker).run s.server)
      (fun out h' => SavesState s ⟨out.2, h'⟩ clearMarker) s.host := by
  refine wp_initializedRemoteState_bind (fun _ => .refl s clearMarker)
    (wp_acceptedActions_bind (fun _ => .refl s clearMarker) (wp_session_bind ?_))
  have uses : (saveEntriesAs s.server.remoteState s.server.allOld format).Uses
      (HostOp.About (· = s.server.remoteState)) :=
    @saveEntriesAs_uses (· = s.server.remoteState) s.server.remoteState rfl _ format
  have saves := Contract.wp_and (wp_of_about uses s.host)
    (saveEntriesAs_written s.server.remoteState s.server.allOld format s.host)
  have saved : ∀ h₁ : Host,
      (∀ path, path ≠ s.server.remoteState → h₁.files path = s.host.files path) ∧
        (h₁.files s.server.remoteState = s.host.files s.server.remoteState ∨
          h₁.files s.server.remoteState = some (.snapshot s.server.allOld format)) →
      SavesState s ⟨s.server, h₁⟩ clearMarker := fun h₁ outcome =>
    ⟨rfl, fun path ne _ => outcome.1 path ne, outcome.2.imp_right fun found => ⟨format, found⟩⟩
  refine wp_call_bind saves (fun _ h₁ outcome => saved h₁ outcome) fun _ h₁ outcome => ?_
  cases clearMarker with
  | false => exact saved h₁ outcome
  | true =>
    have finishes : (finishApplyAttempt s.server.remoteState).Uses
        (HostOp.About (· = applyAttemptPath s.server.remoteState)) :=
      @finishApplyAttempt_uses (· = applyAttemptPath s.server.remoteState) s.server.remoteState rfl
    refine Handler.wp_run_call.mpr (Contract.wp_mono (wp_of_about finishes h₁)
      fun _ h₂ same => ⟨rfl, fun path ne other => ?_, ?_⟩)
    · exact (same path (other rfl)).trans (outcome.1 path ne)
    · have kept := same s.server.remoteState (applyAttemptPath_ne _)
      exact (saved h₁ outcome).snapshot.imp kept.trans fun ⟨format, found⟩ =>
        ⟨format, kept.trans found⟩

theorem clearApplyAttempt_spec (remoteId : String) (s : Session) :
    alone.wp ((serve (.clearApplyAttempt remoteId)).run s.server)
      (fun out h' => out.2 = s.server ∧
        ∀ path, path ≠ applyAttemptPath (remoteStateIn s.server.remoteStateDir remoteId) →
          h'.files path = s.host.files path) s.host := by
  refine Handler.wp_run_bind.mpr ?_
  have found : alone.wp ((remoteStateForId remoteId).run s.server) (fun out h' => h' = s.host ∧
      out.2 = s.server ∧
      ∀ path, out.1 = .ok path → path = remoteStateIn s.server.remoteStateDir remoteId)
      s.host := by
    refine wp_session_bind ?_
    split_ifs
    · exact ⟨rfl, rfl, fun _ same => nomatch same⟩
    · exact ⟨rfl, rfl, fun _ same => (Except.ok.inj same).symm⟩
  refine Contract.wp_mono found fun out h' outcome => ?_
  rcases out with ⟨error | statePath, server⟩
  · obtain ⟨rfl, rfl, -⟩ := outcome
    exact ⟨rfl, fun _ _ => rfl⟩
  · obtain ⟨rfl, rfl, same⟩ := outcome
    obtain rfl := same statePath rfl
    have uses : (clearApplyAttempt (remoteStateIn s.server.remoteStateDir remoteId)).Uses
        (HostOp.About (· = applyAttemptPath (remoteStateIn s.server.remoteStateDir remoteId))) :=
      @clearApplyAttempt_uses (· = applyAttemptPath _) _ rfl
    exact wp_call_bind (wp_of_about uses s.host) (fun _ _ same => ⟨rfl, same⟩)
      fun _ _ same => ⟨rfl, same⟩

/-! ## One call -/

section Call

variable {s s' : Session} {record : Option AttemptRecord} {result : Except Report Reply}

/-- A call that says something about the record of an attempt, if there is one. -/
theorem Tracks.map {f : AttemptRecord → AttemptRecord} (tracks : Tracks s record)
    (idle : s.server.attempt = none → s'.server.attempt = none)
    (described : ∀ r, record = some r → Describes s r → Describes s' (f r)) :
    Tracks s' (record.map f) := by
  cases record with
  | none => exact idle tracks
  | some r => exact described r rfl tracks

theorem Tracks.described (tracks : Tracks s record) {attemptId : String} {statePath : StatePath}
    (active : s.server.attempt = some (attemptId, statePath)) :
    ∃ r, record = some r ∧ r.attemptId = attemptId ∧ r.statePath = statePath ∧ Describes s r := by
  cases record with
  | none => cases active.symm.trans tracks
  | some r =>
    have same := active.symm.trans tracks.attempt
    cases same
    exact ⟨r, rfl, rfl, rfl, tracks⟩

/-- The staged apply moves on, to a state before its commit. -/
theorem Describes.move {r : AttemptRecord} (described : Describes s r) {request : Request}
    (attempt : s'.server.attempt = s.server.attempt)
    (before : ∀ attemptId statePath started saved,
      s'.server.stagedApply ≠ some (.committed attemptId statePath started saved))
    (marked : request.removesMarker s.server r.attemptId r.statePath = false →
      s.host.Marked r.statePath r.attemptId → s'.host.Marked r.statePath r.attemptId) :
    Describes s' (r.pass s request s') where
  attempt := attempt.trans described.attempt
  marked kept := by
    obtain ⟨unremoved, untouched⟩ : r.markerKept = true ∧
        (request.removesMarker s.server r.attemptId r.statePath &&
          !s'.host.isMarked r.statePath r.attemptId) = false := by
      rw [← Bool.not_eq_true', ← Bool.and_eq_true]
      exact kept
    exact AttemptRecord.pass_marker untouched fun spared =>
      marked spared (described.marked unremoved)
  committed _ _ _ _ staged := absurd staged (before _ _ _ _)

theorem attempt_eq {server : DuetServerImpl} {state : Option StagedApplyState}
    (staged : server.stagedApply = state) :
    server.attempt = state.bind StagedApplyState.attempt := by
  rw [DuetServerImpl.attempt, staged]

theorem Tracks.bystander {request : Request} (tracks : Tracks s record)
    (bystander : request.isBystander) (called : s.Call request result s') :
    Tracks s' (observe record s request result s') := by
  have aside : Aside request.replacesBaseline s s' :=
    called.post (C := alone) (fun _ => rfl) (serve_aside request bystander s)
  have passed : Tracks s' (record.map fun r => r.pass s request s') :=
    tracks.map (attempt_eq aside.1.stagedApply).trans
      fun r _ described => aside.1.describes described aside.2
  cases request with
  | saveState | saveStateV2 | saveStatePending _ | clearApplyAttempt _ | beginStagedApply _
  | finishStagedPrepare _ _ | abortStagedApply _ | commitStagedApply _
  | saveStagedStatePending _ _ | completeStagedApply _ => cases bystander
  | _ => exact passed

/-- A state save outside the staged apply, which removes the marker when it is the state of
the attempt. -/
theorem SavesState.describes {clearMarker : Bool} (saves : SavesState s s' clearMarker)
    {r : AttemptRecord} (described : Describes s r) {request : Request}
    (spared : request.removesMarker s.server r.attemptId r.statePath = false →
      s.server.remoteState ≠ applyAttemptPath r.statePath ∧
        (clearMarker = true → s.server.remoteState ≠ r.statePath)) :
    Describes s' (r.pass s request s') := by
  refine described.of_files saves.server (fun untouched => ?_) fun plain => ?_
  · obtain ⟨apart, kept⟩ := spared untouched
    exact saves.others _ apart.symm fun clears same =>
      kept clears (applyAttemptPath_injective same).symm
  · by_cases same : r.statePath = s.server.remoteState
    · rw [same]
      exact saves.snapshot
    · exact .inl (saves.others _ same fun _ => plain _)

theorem Tracks.saveState {format : SnapshotFormat} {clearMarker : Bool} {request : Request}
    (tracks : Tracks s record)
    (called : Runs Host.exec ((saveStateAs format clearMarker >>=
      fun _ => pure Reply.unit).run s.server) s.host (result, s'.server) s'.host)
    (spared : ∀ r : AttemptRecord,
      request.removesMarker s.server r.attemptId r.statePath = false →
      s.server.remoteState ≠ applyAttemptPath r.statePath ∧
        (clearMarker = true → s.server.remoteState ≠ r.statePath)) :
    Tracks s' (record.map fun r => r.pass s request s') := by
  obtain ⟨_, -, saves⟩ := Session.call_post called (saveStateAs_spec format clearMarker s)
  refine tracks.map (fun idle => ?_) fun r _ described => saves.describes described (spared r)
  rw [saves.server]
  exact idle

theorem Tracks.clearApplyAttempt {remoteId : String} (tracks : Tracks s record)
    (called : s.Call (.clearApplyAttempt remoteId) result s') :
    Tracks s' (observe record s (.clearApplyAttempt remoteId) result s') := by
  obtain ⟨server, others⟩ := called.post (C := alone) (fun _ => rfl) (clearApplyAttempt_spec remoteId s)
  have passed : Tracks s' (record.map fun r => r.pass s (.clearApplyAttempt remoteId) s') := by
    refine tracks.map (fun idle => (attempt_eq (congrArg _ server)).trans idle)
      fun r _ described => described.of_files server (fun untouched => ?_) fun plain => ?_
    · refine others _ fun same => ?_
      have named := (applyAttemptPath_injective same).symm
      simp [Request.removesMarker, named] at untouched
    · exact .inl (others _ (plain _))
  exact passed

theorem Tracks.beginStagedApply {attemptId : String} (tracks : Tracks s record)
    (called : s.Call (.beginStagedApply attemptId) result s') :
    Tracks s' (observe record s (.beginStagedApply attemptId) result s') := by
  obtain ⟨outcome, rfl, begun⟩ := Session.call_post called (beginStagedApply_spec attemptId s)
  cases outcome with
  | error error =>
    exact tracks.map (attempt_eq begun.stagedApply).trans
      fun r _ described => begun.toBystander.describes described fun _ => begun.allOld
  | ok id =>
    obtain ⟨⟨stream, staged⟩, marked⟩ := begun
    exact ⟨attempt_eq staged, fun _ => marked, fun _ _ _ _ same => nomatch staged.symm.trans same⟩

theorem Prepares.attempt {before after : Option StagedApplyState} (prepares : Prepares before after) :
    after.bind StagedApplyState.attempt = before.bind StagedApplyState.attempt := by
  cases prepares <;> rfl

theorem Tracks.finishStagedPrepare {streamId : Nat} {attemptId : String} (tracks : Tracks s record)
    (called : s.Call (.finishStagedPrepare streamId attemptId) result s') :
    Tracks s' (observe record s (.finishStagedPrepare streamId attemptId) result s') := by
  obtain ⟨_, -, prepares, allOld, kept⟩ :=
    Session.call_post called (finishStagedPrepareInner_spec streamId attemptId s)
  refine tracks.map prepares.attempt.trans fun r _ described => ?_
  have moves : (∀ id statePath started saved,
      s'.server.stagedApply ≠ some (.committed id statePath started saved)) →
      Describes s' (r.pass s (.finishStagedPrepare streamId attemptId) s') := fun before =>
    described.move prepares.attempt before fun _ => kept.marked _ _
  generalize later : s'.server.stagedApply = after at prepares
  generalize earlier : s.server.stagedApply = before at prepares
  cases prepares with
  | same =>
    exact (Bystander.mk (later.trans earlier.symm) kept).describes described fun _ => allOld
  | failed => exact moves fun _ _ _ _ same => nomatch later.symm.trans same
  | prepared => exact moves fun _ _ _ _ same => nomatch later.symm.trans same

theorem AbortFails.attempt {attemptId : String} {before after : Option StagedApplyState}
    (fails : AbortFails attemptId before after) :
    after.bind StagedApplyState.attempt = before.bind StagedApplyState.attempt ∧
    (∀ id statePath started saved, after ≠ some (.committed id statePath started saved)) ∧
    ∀ id statePath, before.bind StagedApplyState.attempt = some (id, statePath) → id = attemptId := by
  cases fails with
  | preparing statePath stream => exact ⟨rfl, nofun, fun _ _ same => by cases same; rfl⟩
  | prepared statePath prepared => exact ⟨rfl, nofun, fun _ _ same => by cases same; rfl⟩
  | aborted statePath => exact ⟨rfl, nofun, nofun⟩

/-- An abort that fails on an attempt had gone for its marker. -/
theorem AbortFails.goesToAbort {attemptId : String} {server : DuetServerImpl}
    {after : Option StagedApplyState} (fails : AbortFails attemptId server.stagedApply after)
    {active : String × StatePath} (begun : server.attempt = some active) :
    server.goesToAbort attemptId = true := by
  unfold DuetServerImpl.goesToAbort
  generalize staged : server.stagedApply = before at fails
  cases fails with
  | preparing statePath stream => exact decide_eq_true rfl
  | prepared statePath prepared => exact decide_eq_true rfl
  | aborted statePath => cases (attempt_eq staged).symm.trans begun

/-- The attempt that a call ends is the one of the record. -/
theorem Tracks.ended {attemptId : String} (tracks : Tracks s record)
    (ended : s'.server.attempt = none)
    (own : ∀ id statePath, s.server.attempt = some (id, statePath) → id = attemptId) :
    Tracks s' (record.filter fun r => r.attemptId ≠ attemptId) := by
  cases record with
  | none => exact ended
  | some r =>
    have same : r.attemptId = attemptId := own _ _ tracks.attempt
    have none : (some r).filter (fun r => r.attemptId ≠ attemptId) = none := by simp [same]
    rw [none]
    exact ended

theorem Tracks.abortStagedApply {attemptId : String} (tracks : Tracks s record)
    (called : s.Call (.abortStagedApply attemptId) result s') :
    Tracks s' (observe record s (.abortStagedApply attemptId) result s') := by
  obtain ⟨outcome, rfl, aborted⟩ := Session.call_post called (abortStagedApply_spec attemptId s)
  cases outcome with
  | ok _ => exact tracks.ended aborted.1 aborted.2
  | error error =>
    obtain ⟨allOld, ⟨same, kept⟩ | fails⟩ := aborted
    · exact tracks.map (attempt_eq same).trans
        fun r _ described => (Bystander.mk same kept).describes described fun _ => allOld
    · obtain ⟨attempt, before, own⟩ := fails.attempt
      refine tracks.map attempt.trans fun r _ described =>
        described.move attempt before fun untouched => ?_
      have same : attemptId = r.attemptId := (own _ _ described.attempt).symm
      subst same
      simp [Request.removesMarker, fails.goesToAbort described.attempt] at untouched

theorem Tracks.commitStagedApply {attemptId : String} (tracks : Tracks s record)
    (called : s.Call (.commitStagedApply attemptId) result s') :
    Tracks s' (observe record s (.commitStagedApply attemptId) result s') := by
  obtain ⟨outcome, rfl, kept, committed⟩ :=
    Session.call_post called (commitStagedApplyInner_spec attemptId s)
  cases outcome with
  | ok _ =>
    obtain ⟨statePath, prepared, before, after, produced⟩ := committed
    obtain ⟨r, rfl, rfl, rfl, described⟩ := tracks.described (attempt_eq before)
    have recorded : Describes s' (r.commit s'.host.tree.manifest) := by
      refine ⟨attempt_eq after, fun unremoved => kept.marked _ _ (described.marked unremoved), ?_⟩
      intro id path started saved staged
      cases after.symm.trans staged
      exact ⟨rfl, s'.server.allOld, produced, fun _ => ⟨rfl, nofun⟩⟩
    change Tracks s' (some (if r.attemptId = r.attemptId then _ else _))
    rw [if_pos rfl]
    exact recorded
  | error error =>
    obtain ⟨allOld, same | ⟨statePath, prepared, before, after⟩⟩ := committed
    · exact tracks.map (attempt_eq same).trans
        fun r _ described => (Bystander.mk same kept).describes described fun _ => allOld
    · have attempt : s'.server.attempt = s.server.attempt :=
        (attempt_eq after).trans (attempt_eq before).symm
      exact tracks.map attempt.trans fun r _ described =>
        described.move attempt (fun _ _ _ _ same => nomatch after.symm.trans same)
          fun _ => kept.marked _ _

theorem Tracks.saveStagedStatePending {attemptId : String} {strong : Bool}
    (tracks : Tracks s record)
    (called : s.Call (.saveStagedStatePending attemptId strong) result s') :
    Tracks s' (observe record s (.saveStagedStatePending attemptId strong) result s') := by
  obtain ⟨outcome, rfl, saved⟩ :=
    Session.call_post called (saveStagedStatePendingInner_spec attemptId strong s)
  rcases saved with ⟨server, host, error, rfl⟩ | ⟨statePath, started, saved, staged, saves⟩
  · exact tracks.map (attempt_eq (congrArg _ server)).trans fun r _ described =>
      described.of_files server (fun _ => by rw [host]) fun _ => .inl (by rw [host])
  · obtain ⟨r, rfl, rfl, rfl, described⟩ := tracks.described (attempt_eq staged)
    obtain ⟨recorded, entries, produced, keeps⟩ := described.committed _ _ _ _ staged
    cases outcome with
    | error error =>
      obtain ⟨unsaved, started', after⟩ := saves.failed error rfl
      have failed : Describes s' (r.disturb false false) := by
        refine ⟨(attempt_eq after).trans (attempt_eq staged).symm |>.trans described.attempt,
          fun kept => ?_, fun id path started₂ saved₂ staged₂ => ?_⟩
        · exact saves.marked _ (described.marked (by simpa [AttemptRecord.disturb] using kept))
        · cases after.symm.trans staged₂
          refine ⟨recorded.trans unsaved, entries, produced, fun kept => ?_⟩
          have product := keeps (by simpa [AttemptRecord.disturb] using kept)
          exact ⟨saves.allOld.trans product.allOld,
            fun written => nomatch written.symm.trans (recorded.trans unsaved)⟩
      exact failed
    | ok _ =>
      have ok : Describes s' r.save := by
        cases saved with
        | true =>
          obtain ⟨host, server⟩ := saves.stays rfl
          refine ⟨?_, ?_, ?_⟩
          · rw [server]
            exact described.attempt
          · rw [host]
            exact described.marked
          · rw [server]
            intro id path started₂ saved₂ staged₂
            cases staged.symm.trans staged₂
            refine ⟨rfl, entries, produced, fun kept => ?_⟩
            exact ⟨(congrArg _ server).trans (keeps kept).allOld, fun _ plain =>
              host ▸ (keeps kept).snapshot recorded plain⟩
        | false =>
          obtain ⟨⟨started', after⟩, format, found⟩ := saves.written rfl rfl
          refine ⟨attempt_eq after,
            fun kept => saves.marked _ (described.marked kept), ?_⟩
          intro id path started₂ saved₂ staged₂
          cases after.symm.trans staged₂
          refine ⟨rfl, entries, produced, fun kept => ?_⟩
          have product := keeps kept
          refine ⟨saves.allOld.trans product.allOld, fun _ _ => ⟨format, ?_⟩⟩
          rw [← product.allOld]
          exact found
      change Tracks s' (some (if r.attemptId = r.attemptId then _ else _))
      rw [if_pos rfl]
      exact ok

theorem Tracks.completeStagedApply {attemptId : String} (tracks : Tracks s record)
    (called : s.Call (.completeStagedApply attemptId) result s') :
    Tracks s' (observe record s (.completeStagedApply attemptId) result s') := by
  obtain ⟨outcome, rfl, completed⟩ :=
    Session.call_post called (completeStagedApplyInner_spec attemptId s)
  cases outcome with
  | ok _ => exact tracks.ended completed.1 completed.2
  | error error =>
    obtain ⟨server, same | ⟨statePath, started, staged, others⟩⟩ := completed
    · exact tracks.map (attempt_eq (congrArg _ server)).trans fun r _ described =>
        described.of_files server (fun _ => by rw [same]) fun _ => .inl (by rw [same])
    · obtain ⟨r, rfl, rfl, rfl, described⟩ := tracks.described (attempt_eq staged)
      have failed : Describes s' (r.pass s (.completeStagedApply r.attemptId) s') := by
        refine described.of_files server (fun untouched => ?_)
          fun _ => .inl (others _ (applyAttemptPath_ne _))
        simp [Request.removesMarker, DuetServerImpl.goesToComplete, staged] at untouched
      exact failed

theorem Tracks.call {request : Request} (tracks : Tracks s record)
    (called : s.Call request result s') : Tracks s' (observe record s request result s') := by
  cases request with
  | saveState =>
    exact @Tracks.saveState _ _ _ _ _ true _ tracks called fun r spared => by
      simpa [Request.removesMarker, and_comm] using spared
  | saveStateV2 =>
    exact @Tracks.saveState _ _ _ _ _ true _ tracks called fun r spared => by
      simpa [Request.removesMarker, and_comm] using spared
  | saveStatePending strong =>
    exact @Tracks.saveState _ _ _ _ _ false _ tracks called fun r spared => by
      simpa [Request.removesMarker] using spared
  | clearApplyAttempt remoteId => exact tracks.clearApplyAttempt called
  | beginStagedApply attemptId => exact tracks.beginStagedApply called
  | finishStagedPrepare streamId attemptId => exact tracks.finishStagedPrepare called
  | abortStagedApply attemptId => exact tracks.abortStagedApply called
  | commitStagedApply attemptId => exact tracks.commitStagedApply called
  | saveStagedStatePending attemptId strong => exact tracks.saveStagedStatePending called
  | completeStagedApply attemptId => exact tracks.completeStagedApply called
  | _ => exact tracks.bystander rfl called

end Call

/-- The session and the host agree with the record in every run. -/
theorem Session.Run.tracks {s : Session} {record : Option AttemptRecord}
    (run : Session.Run s record) : Tracks s record := by
  induction run with
  | start remoteStateDir host => exact rfl
  | call _ called ih => exact ih.call called

/-- In every run from a new server, in which the client may call anything: the marker of the
attempt of the record is on disk unless one of the calls that may remove it took it away, and
a state save of a committed attempt leaves the manifest that its commit produced at the state
path it began with, unless a call replaced the baseline in between. A second save of a state
file that has the name of a marker writes nothing. -/
theorem stagedAttempts_keepBaseline {s : Session} {record : Option AttemptRecord}
    (run : Session.Run s record) :
    (∀ r, record = some r → r.markerKept → s.host.Marked r.statePath r.attemptId) ∧
    ∀ attemptId strong reply s',
      s.Call (.saveStagedStatePending attemptId strong) (.ok reply) s' →
      ∃ r entries, record = some r ∧ r.attemptId = attemptId ∧ r.produced = some entries ∧
        (r.baselineKept → (r.saved → r.statePath.Plain) →
          ∃ format, s'.host.files r.statePath = some (.snapshot entries format)) := by
  have tracks := run.tracks
  refine ⟨fun r same => ?_, fun attemptId strong reply s' called => ?_⟩
  · subst same
    exact tracks.marked
  · obtain ⟨outcome, same, saved⟩ :=
      Session.call_post called (saveStagedStatePendingInner_spec attemptId strong s)
    rcases saved with ⟨-, -, error, failed⟩ | ⟨statePath, started, saved, staged, saves⟩
    · obtain rfl : outcome = .error error := failed
      cases same
    · obtain ⟨r, rfl, rfl, rfl, described⟩ := tracks.described (attempt_eq staged)
      obtain ⟨recorded, entries, produced, keeps⟩ := described.committed _ _ _ _ staged
      refine ⟨r, entries, rfl, rfl, produced, fun kept plain => ?_⟩
      have product := keeps kept
      cases outcome with
      | error error => cases same
      | ok _ =>
        cases saved with
        | true =>
          obtain ⟨host, -⟩ := saves.stays rfl
          rw [show s'.host = s.host from host]
          exact product.snapshot recorded (plain recorded)
        | false =>
          obtain ⟨-, format, found⟩ := saves.written rfl rfl
          exact ⟨format, product.allOld ▸ found⟩

/-! ## Concrete runs -/

namespace Session

/-- The calls on a host that answers, one after another, and their record. -/
def respondAll (context : State.ScanContext) :
    Session → Option AttemptRecord → List Request → Session × Option AttemptRecord
  | s, record, [] => (s, record)
  | s, record, request :: rest =>
    let out := s.respond context request
    respondAll context out.2 (observe record s request out.1 out.2) rest

theorem Run.respondAll (context : State.ScanContext) {s : Session} {record : Option AttemptRecord}
    (run : Run s record) (requests : List Request) :
    Run (s.respondAll context record requests).1 (s.respondAll context record requests).2 := by
  induction requests generalizing s record with
  | nil => exact run
  | cons request rest ih => exact ih (run.call (s.respond_call context request))

/-- A new server on a host without any file. -/
def fresh : Session := ⟨.new [], ⟨fun _ => none, [], .settled 0 [], 0, [], []⟩⟩

end Session

/-- The file `f`, which is in the snapshot and on disk. -/
def unchangedFile : DirEntryWithMeta := ⟨[.normal [102]], 1, 1, 1, 420, none, false, 0, none⟩

def unchangedContext : State.ScanContext := ⟨[unchangedFile], [], [unchangedFile], false⟩

/-- The calls of a client that commits attempt `a` with nothing to change. Calls that are
refused come in between: aborts and completions in the wrong phase or of another attempt, and
the end of a stream that there is not. -/
def commitCalls : List Request :=
  [.changes [] "s", .setActions [], .beginStagedApply "a", .completeStagedApply "a",
    .abortStagedApply "b", .finishStagedPrepare 1 "a", .commitStagedApply "b",
    .commitStagedApply "a", .abortStagedApply "a", .completeStagedApply "a",
    .finishApplyStream 7]

/-- After the calls up to the commit, and the refused ones, the marker is on disk and the
state save leaves the manifest of the commit. -/
theorem stagedAttempts_keepBaseline_unchanged :
    ∃ s record s', Session.Run s record ∧
      s.Call (.saveStagedStatePending "a" true) (.ok .unit) s' ∧
      s.host.Marked ⟨[], "s"⟩ "a" ∧
      ∃ format, s'.host.files ⟨[], "s"⟩ = some (.snapshot [unchangedFile] format) := by
  have run := (Session.Run.start [] _).respondAll unchangedContext commitCalls
    (s := Session.fresh)
  have called := Session.respond_call unchangedContext
    (Session.fresh.respondAll unchangedContext none commitCalls).1
    (.saveStagedStatePending "a" true)
  obtain ⟨kept, saves⟩ := stagedAttempts_keepBaseline run
  obtain ⟨r, entries, recorded, -, produced, found⟩ := saves "a" true .unit _ called
  obtain rfl : r = ⟨"a", ⟨[], "s"⟩, some [unchangedFile], false, true, true⟩ :=
    (Option.some.inj recorded).symm
  obtain rfl : [unchangedFile] = entries := Option.some.inj produced
  exact ⟨_, _, _, run, called, kept _ rfl rfl, found rfl nofun⟩

/-- The marker of an attempt does not stay until the attempt is over: the client may clear
it with the call for recovered attempts. -/
theorem clearApplyAttempt_unmarks :
    ¬ ∀ s record, Session.Run s record →
      ∀ r, record = some r → s.host.Marked r.statePath r.attemptId := by
  intro marked
  have run := (Session.Run.start [] _).respondAll unchangedContext
    [.changes [] "s", .setActions [], .beginStagedApply "a", .clearApplyAttempt "s"]
    (s := Session.fresh)
  exact (marked _ _ run _ rfl).present rfl

end Duet

import Duet.Rpc.Server
import Duet.Sync.AttemptCalls

/-!
# Sessions

A session is the server with its host, and takes one call after another. The calls that
are no part of the staged apply leave its state alone, and most of them also the baseline
and every recovery marker.
-/

namespace Duet

open Lib Marker

structure Session where
  server : DuetServerImpl
  host : Host

/-- The operations of a host on which nothing else acts. -/
def alone : Contract hostEffects Host where
  exec := Host.exec
  rely := Eq
  guar _ _ := True

/-- The server serves one call, with any outcome of the operations on its host. -/
def Session.Call (s : Session) (request : Request) (result : Except Report Reply)
    (s' : Session) : Prop :=
  Runs Host.exec ((serve request).run s.server) s.host (result, s'.server) s'.host

/-! ## What calls keep on the host -/

namespace Host

/-- Markers of staged attempts stay where they are, and so does every file that is not
under the name of a marker. -/
structure Kept (h h' : Host) : Prop where
  marked : ∀ statePath attemptId, h.Marked statePath attemptId → h'.Marked statePath attemptId
  files : ∀ path, (∀ state, path ≠ applyAttemptPath state) → h'.files path = h.files path

theorem Kept.refl (h : Host) : h.Kept h := ⟨fun _ _ marked => marked, fun _ _ => rfl⟩

theorem Kept.trans {h h' h'' : Host} (first : h.Kept h') (second : h'.Kept h'') : h.Kept h'' where
  marked statePath attemptId marked :=
    second.marked statePath attemptId (first.marked statePath attemptId marked)
  files path other := (second.files path other).trans (first.files path other)

theorem Kept.of_careful {h h' : Host} {op : HostOp} {reply : Except Report op.Value}
    (careful : op.Careful) (run : h.exec op reply h') : h.Kept h' where
  marked _ _ marked := exec_marked run careful.1 marked
  files path other := by
    refine exec_files_other run fun touched => ?_
    obtain ⟨state, same⟩ := careful.2 path touched
    exact other state same

theorem Kept.of_files {h h' : Host} (same : h'.files = h.files) : h.Kept h' where
  marked _ _ marked := marked.congr (congrFun same _)
  files path _ := congrFun same path

end Host

section Alone

variable {α : Type} {call : HostM α}

theorem alone_lawful : alone.Lawful := ⟨fun _ => rfl, fun first second => first.trans second⟩

theorem alone_stable {P : Host → Prop} : alone.Stable P := fun _ _ same holds => same ▸ holds

theorem wp_of_careful (uses : call.Uses HostOp.Careful) (h : Host) :
    alone.wp call.run (fun _ h' => h.Kept h') h :=
  Contract.wp_of_uses (P := h.Kept) uses alone_stable
    (fun _ _ _ _ careful run kept => ⟨trivial, kept.trans (.of_careful careful run)⟩) (.refl h)

/-- A call about some files leaves all other files alone. -/
theorem wp_of_about {paths : StatePath → Prop} (uses : call.Uses (HostOp.About paths)) (h : Host) :
    alone.wp call.run (fun _ h' => ∀ path, ¬ paths path → h'.files path = h.files path) h :=
  Contract.wp_of_uses (P := fun h' : Host => ∀ path, ¬ paths path → h'.files path = h.files path)
    uses alone_stable
    (fun _ _ _ _ about run same => ⟨trivial, fun path other =>
      (Host.exec_files_other run fun touched => other (about path touched)).trans
        (same path other)⟩)
    fun _ _ => rfl

end Alone

theorem applyAttemptPath_injective : Function.Injective applyAttemptPath := by
  rintro ⟨dir, name⟩ ⟨dir', name'⟩ same
  simp only [applyAttemptPath, StatePath.mk.injEq, String.append_left_inj,
    String.append_right_inj] at same
  rw [same.1, same.2]

theorem applyAttemptPath_ne (statePath : StatePath) : statePath ≠ applyAttemptPath statePath := by
  intro same
  have lengths := congrArg (fun path => path.fileName.length) same
  have longer : ".duet-apply".length = 11 := rfl
  simp only [applyAttemptPath, String.length_append] at lengths
  omega

@[simp] theorem wp_host {σ : Type} {C : Contract hostEffects σ} {op : HostOp}
    {Q : Except Report op.Value → σ → Prop} {s : σ} :
    C.wp (host op).run Q s ↔
      ∀ t, C.rely s t → ∀ reply u, C.exec op t reply u → C.guar t u ∧ Q reply u :=
  Iff.rfl

theorem wp_alone_host {op : HostOp} {Q : Except Report op.Value → Host → Prop} {h : Host} :
    alone.wp (host op).run Q h ↔ ∀ reply h', h.exec op reply h' → Q reply h' := by
  simp [alone]

theorem transitionStagedApplyAttempt_kept (statePath : StatePath) (attemptId : String)
    (expected : List ApplyAttemptPhase) (next : ApplyAttemptPhase) (h : Host) :
    alone.wp (transitionStagedApplyAttempt statePath attemptId expected next).run
      (fun _ h' => h.Kept h') h :=
  wp_of_careful (transitionStagedApplyAttempt_uses statePath attemptId expected next) h

/-- The state save of an unstaged apply does not replace the marker of a staged attempt. -/
theorem markApplyAttemptStateSave_kept (side : String) (statePath : StatePath) (base : Path)
    (actions : Actions) (attemptId : Option String) (h : Host) :
    alone.wp (markApplyAttemptStateSave side statePath base actions attemptId).run
      (fun _ h' => h.Kept h') h := by
  have replaced : ∀ header stateSave records,
      (∀ q a, h.Marked q a → applyAttemptPath q ≠ applyAttemptPath statePath) →
      alone.wp (host (.replaceMarker (applyAttemptPath statePath)
        (.applyMarker header stateSave records))).run (fun _ h' => h.Kept h') h := by
    intro header stateSave records unmarked
    rw [wp_alone_host]
    intro reply h' run
    have other : ∀ path, path ≠ applyAttemptPath statePath → h'.files path = h.files path := by
      intro path ne
      exact Host.exec_files_other run fun touched => ne (Option.some.inj touched).symm
    exact ⟨fun q a marked => marked.congr (other _ (unmarked q a marked)),
      fun path ne => other path (ne statePath)⟩
  unfold markApplyAttemptStateSave
  rw [Contract.wp_run_bind, wp_alone_host]
  intro reply h' run
  cases reply with
  | error error =>
    rw [show h' = h from run]
    exact .refl h
  | ok file =>
    obtain ⟨rfl, found⟩ : h' = h ∧ h.files (applyAttemptPath statePath) = some file := run
    have unmarked : (∀ header id phase records, file ≠ .stagedMarker header id phase records) →
        (∀ id, file ≠ .tornMarker id) →
        ∀ q a, h'.Marked q a → applyAttemptPath q ≠ applyAttemptPath statePath := by
      intro notStaged notTorn q a marked same
      rcases marked with ⟨header, phase, records, present⟩ | present
      · rw [same, found] at present
        exact notStaged _ _ _ _ (Option.some.inj present)
      · rw [same, found] at present
        exact notTorn _ (Option.some.inj present)
    cases file with
    | stagedMarker header id phase records =>
      cases attemptId with
      | some id => exact transitionStagedApplyAttempt_kept _ _ _ _ _
      | none => exact .refl _
    | tornMarker id =>
      cases attemptId with
      | some id => exact transitionStagedApplyAttempt_kept _ _ _ _ _
      | none => exact .refl _
    | applyMarker => exact replaced _ _ _ (unmarked nofun nofun)
    | snapshot => exact replaced _ _ _ (unmarked nofun nofun)
    | other => exact replaced _ _ _ (unmarked nofun nofun)

/-! ## A session that can be run -/

namespace Host

/-- The answers of a host on which every operation succeeds that can, but that never moves a
marker back. Its scans find `context`. -/
def answer (context : State.ScanContext) (op : HostOp) (h : Host) :
    Except Report op.Value × Host :=
  match op with
  | .full _ => (.ok [], h)
  | .scan _ _ => (.ok context, h)
  | .check _ | .syncParent _ | .stageOutput _ => (.ok (), h)
  | .validateCommit => (.ok (), h.noteValidated)
  | .tryExists path => (.ok (h.files path).isSome, h)
  | .readMarker path =>
    match h.files path with
    | some file => (.ok file, h)
    | none => (.error "cannot read apply recovery marker", h)
  | .createMarker path file =>
    match h.files path with
    | some _ => (.error "apply recovery marker already exists", h)
    | none => (.ok (), h.write path file)
  | .setPhase path attemptId expected next =>
    match h.files path with
    | some (.stagedMarker header id phase records) =>
      if id = attemptId ∧ phase ∈ expected ∧ nextStagedPhase phase = some next then
        let moved := h.write path (.stagedMarker header attemptId next records)
        (.ok (), if next = .prepared then moved.notePrepared else moved)
      else
        (.error "cannot transition staged apply attempt", h)
    | _ => (.error "staged apply marker is malformed", h)
  | .replaceMarker path file => (.ok (), h.write path file)
  | .removeFile path => (.ok (), h.erase path)
  | .quarantine path =>
    match h.files path with
    | some file => (.ok file, h.moveAside path file)
    | none => (.error "cannot quarantine apply recovery marker", h)
  | .restore _ _ => (.error "cannot restore apply recovery marker", h)
  | .unlinkQuarantined path file =>
    if (path, file) ∈ h.quarantined then (.ok (), h.dropQuarantined path file)
    else (.error "cannot unlink quarantined marker", h)
  | .readQuarantined path file =>
    if (path, file) ∈ h.quarantined then (.ok file, h)
    else (.error "cannot read quarantined marker", h)
  | .mutate _ => (.ok (), h.beginMutation)
  | .localResults count => (.ok (List.replicate count none), h)
  | .appliedEntries => (.ok [], h)
  | .settle entries => (.ok (), h.settle entries)
  | .saveEntries path entries format => (.ok (), h.write path (.snapshot entries format))

theorem answer_sound (context : State.ScanContext) (op : HostOp) (h : Host) :
    h.exec op (h.answer context op).1 (h.answer context op).2 := by
  cases op with
  | readMarker path =>
    simp only [answer]
    split
    next file found => exact ⟨rfl, found⟩
    next => exact rfl
  | createMarker path file =>
    simp only [answer]
    split
    next => exact .inl rfl
    next absent => exact .inl ⟨absent, rfl⟩
  | setPhase path attemptId expected next =>
    simp only [answer]
    split
    next header id phase records found =>
      by_cases advances : id = attemptId ∧ phase ∈ expected ∧ nextStagedPhase phase = some next
      · rw [if_pos advances]
        obtain ⟨rfl, allowed, follows⟩ := advances
        exact ⟨_, ⟨header, phase, records, found, allowed, follows, rfl⟩, rfl⟩
      · rw [if_neg advances]
        exact .inl rfl
    next => exact .inl rfl
  | quarantine path =>
    simp only [answer]
    split
    next file found => exact ⟨found, rfl⟩
    next => exact .inl rfl
  | unlinkQuarantined path file =>
    simp only [answer]
    split_ifs with waiting
    · exact ⟨waiting, rfl⟩
    · exact rfl
  | readQuarantined path file =>
    simp only [answer]
    split_ifs with waiting
    · exact ⟨waiting, rfl, rfl⟩
    · exact rfl
  | tryExists path => exact ⟨rfl, rfl⟩
  | localResults count => exact ⟨rfl, List.length_replicate⟩
  | restore path file => exact .inl rfl
  | stageOutput marker => exact .inl rfl
  | mutate marker => exact .inl rfl
  | _ => exact rfl

end Host

/-- The session after a call on such a host, and the result of the call. -/
def Session.respond (context : State.ScanContext) (s : Session) (request : Request) :
    Except Report Reply × Session :=
  let out := ((serve request).run s.server).eval (fun op h => h.answer context op) s.host
  (out.1.1, ⟨out.1.2, out.2⟩)

theorem Session.respond_call (context : State.ScanContext) (s : Session) (request : Request) :
    s.Call request (s.respond context request).1 (s.respond context request).2 :=
  Runs.eval (fun op h => h.answer_sound context op) _ _

end Duet

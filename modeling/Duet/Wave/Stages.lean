import Duet.Lib.Component
import Duet.Rpc.Session

/-!
# The stages of a wave on one host

A wave goes through three stages on each side. Before it commits, the state file and the
target tree are those of the last checkpoint, and a marker that can be read can be aborted
(`Host.Untouched`). While it commits, its marker is in place (`Host.Committing`). When its
state is saved, the snapshot describes the tree (`Host.Saved`). For each stage there is a class
of operations that keep it.
-/

namespace Duet

open Lib Marker

/-! ## What a marker says -/

/-- The file is no marker that can be read, or one of such an attempt in such a phase. -/
def HostFile.Marks (ids : String → Prop) (phases : ApplyAttemptPhase → Prop) : HostFile → Prop
  | .stagedMarker _ attemptId phase _ => ids attemptId ∧ phases phase
  | _ => True

/-- The phases that an attempt can be aborted in. -/
def ApplyAttemptPhase.Precommit (phase : ApplyAttemptPhase) : Prop :=
  phase = .preparing ∨ phase = .prepared

/-- The marker at its own name and the ones that were moved away from it. -/
structure Host.MarkerIn (h : Host) (statePath : StatePath) (ids : String → Prop)
    (phases : ApplyAttemptPhase → Prop) : Prop where
  found : ∀ file, h.files (applyAttemptPath statePath) = some file → file.Marks ids phases
  aside : ∀ file, (applyAttemptPath statePath, file) ∈ h.quarantined → file.Marks ids phases

/-- The operation writes no other marker at this name. -/
def HostOp.MarksOnly (statePath : StatePath) (ids : String → Prop)
    (phases : ApplyAttemptPhase → Prop) : HostOp → Prop
  | .createMarker path file | .replaceMarker path file =>
    path = applyAttemptPath statePath → file.Marks ids phases
  | .setPhase path _ _ next => path = applyAttemptPath statePath → phases next
  | _ => True

namespace Host

variable {h h' : Host} {op : HostOp} {reply : Except Report op.Value} {statePath : StatePath}
  {ids : String → Prop} {phases : ApplyAttemptPhase → Prop}

/-- What a file is after an operation that wrote to it. -/
theorem MarkerIn.write {path : StatePath} {file : HostFile} (holds : h.MarkerIn statePath ids phases)
    (marks : path = applyAttemptPath statePath → file.Marks ids phases) :
    (h.write path file).MarkerIn statePath ids phases := by
  refine ⟨fun found present => ?_, holds.aside⟩
  by_cases same : applyAttemptPath statePath = path
  · rw [write_files, same, Function.update_self] at present
    cases present
    exact marks same.symm
  · rw [write_files, Function.update_of_ne same] at present
    exact holds.found found present

theorem HostFile.Recorded.marks {file file' : HostFile} (recorded : file.Recorded file')
    (marks : file.Marks ids phases) : file'.Marks ids phases := by
  cases recorded with
  | staged => exact marks
  | _ => trivial

theorem Recorded.markerIn {marker : Option StatePath} (recorded : h.Recorded marker h')
    (holds : h.MarkerIn statePath ids phases) : h'.MarkerIn statePath ids phases := by
  rcases recorded with rfl | ⟨target, file, file', -, found, rewritten, rfl⟩
  · exact holds
  · refine holds.write fun same => HostFile.Recorded.marks rewritten (holds.found file ?_)
    rw [← same]
    exact found

theorem Advances.markerIn {target : StatePath} {attemptId : String}
    {expected : List ApplyAttemptPhase} {next : ApplyAttemptPhase}
    (advances : h.Advances target attemptId expected next h')
    (holds : h.MarkerIn statePath ids phases)
    (allowed : target = applyAttemptPath statePath → phases next) :
    h'.MarkerIn statePath ids phases := by
  obtain ⟨header, phase, records, found, -, -, rfl⟩ := advances
  refine holds.write fun same => ?_
  rw [same] at found
  exact ⟨(holds.found _ found).1, allowed same⟩

/-- The markers of a name stay in a set of attempts and phases. -/
theorem MarkerIn.exec (holds : h.MarkerIn statePath ids phases) (run : h.exec op reply h')
    (only : op.MarksOnly statePath ids phases) : h'.MarkerIn statePath ids phases := by
  have erased : ∀ {g : Host} {path : StatePath},
      g.files = Function.update h.files path none →
      ∀ file, g.files (applyAttemptPath statePath) = some file → file.Marks ids phases := by
    intro g path files file present
    rw [files] at present
    by_cases same : applyAttemptPath statePath = path
    · rw [same, Function.update_self] at present
      cases present
    · rw [Function.update_of_ne same] at present
      exact holds.found file present
  cases exec_effect run with
  | none => exact holds
  | validated => exact ⟨holds.found, holds.aside⟩
  | created file absent written =>
    refine holds.write fun same => ?_
    rcases written with rfl | rfl
    · exact only same
    · trivial
  | advanced advances => exact advances.markerIn holds only
  | preparedNoted advances =>
    have moved := advances.markerIn holds only
    exact ⟨moved.found, moved.aside⟩
  | torn => exact holds.write fun _ => trivial
  | replaced => exact holds.write only
  | removed => exact ⟨erased rfl, holds.aside⟩
  | @movedAside path file found =>
    refine ⟨erased rfl, fun moved waiting => ?_⟩
    rcases List.mem_cons.mp waiting with same | waiting
    · cases same
      exact holds.found _ found
    · exact holds.aside moved waiting
  | @movedBack path file waiting absent =>
    refine ⟨fun current present => ?_,
      fun waiting' left => holds.aside waiting' (List.mem_of_mem_erase left)⟩
    by_cases same : applyAttemptPath statePath = path
    · rw [moveBack_files, same, Function.update_self] at present
      cases present
      rw [← same] at waiting
      exact holds.aside file waiting
    · rw [moveBack_files, Function.update_of_ne same] at present
      exact holds.found current present
  | dropped =>
    exact ⟨holds.found, fun waiting left => holds.aside waiting (List.mem_of_mem_erase left)⟩
  | staged recorded => exact recorded.markerIn holds
  | mutated recorded => exact recorded.markerIn ⟨holds.found, holds.aside⟩
  | settled => exact ⟨holds.found, holds.aside⟩
  | saved => exact holds.write fun _ => trivial

/-! ## What is prepared and validated -/

/-- The wave that the host works on has been prepared and validated there. -/
structure Ready (h : Host) (wave : Nat) : Prop where
  current : h.wave = wave
  prepared : wave ∈ h.prepared
  validated : wave ∈ h.validated

/-- An operation forgets nothing that was prepared or validated. -/
structure Notes (h h' : Host) : Prop where
  wave : h'.wave = h.wave
  prepared : h.prepared ⊆ h'.prepared
  validated : h.validated ⊆ h'.validated

theorem Notes.refl (h : Host) : h.Notes h := ⟨rfl, List.Subset.refl _, List.Subset.refl _⟩

theorem Notes.trans {h'' : Host} (first : h.Notes h') (second : h'.Notes h'') : h.Notes h'' :=
  ⟨second.wave.trans first.wave, List.Subset.trans first.prepared second.prepared,
    List.Subset.trans first.validated second.validated⟩

theorem Recorded.notes {marker : Option StatePath} (recorded : h.Recorded marker h') :
    h.Notes h' := by
  rcases recorded with rfl | ⟨target, file, file', -, -, -, rfl⟩ <;> exact ⟨rfl, by simp, by simp⟩

theorem Advances.notes {target : StatePath} {attemptId : String}
    {expected : List ApplyAttemptPhase} {next : ApplyAttemptPhase}
    (advances : h.Advances target attemptId expected next h') : h.Notes h' := by
  obtain ⟨header, phase, records, -, -, -, rfl⟩ := advances
  exact ⟨rfl, by simp, by simp⟩

theorem exec_notes (run : h.exec op reply h') : h.Notes h' := by
  cases exec_effect run with
  | advanced advances => exact advances.notes
  | preparedNoted advances =>
    have moved := advances.notes
    exact ⟨moved.wave, fun _ noted => List.mem_cons_of_mem _ (moved.prepared noted),
      moved.validated⟩
  | staged recorded => exact recorded.notes
  | mutated recorded =>
    have moved := recorded.notes
    exact ⟨moved.wave, moved.prepared, moved.validated⟩
  | _ => exact ⟨rfl, by simp, by simp⟩

theorem Ready.exec {wave : Nat} (ready : h.Ready wave) (run : h.exec op reply h') :
    h'.Ready wave := by
  have notes := exec_notes run
  exact ⟨notes.wave.trans ready.current, notes.prepared ready.prepared,
    notes.validated ready.validated⟩

/-! ## Quarantine -/

/-- Only a quarantine moves a marker away. -/
theorem exec_quarantined (run : h.exec op reply h') (stays : ∀ path, op ≠ .quarantine path)
    (empty : h.quarantined = []) : h'.quarantined = [] := by
  cases exec_effect run with
  | advanced advances =>
    obtain ⟨header, phase, records, -, -, -, rfl⟩ := advances
    exact empty
  | preparedNoted advances =>
    obtain ⟨header, phase, records, -, -, -, rfl⟩ := advances
    exact empty
  | staged recorded =>
    rcases recorded with rfl | ⟨target, file, file', -, -, -, rfl⟩ <;> exact empty
  | mutated recorded =>
    rcases recorded with rfl | ⟨target, file, file', -, -, -, rfl⟩ <;> exact empty
  | movedAside => exact absurd rfl (stays _)
  | movedBack waiting =>
    rw [empty] at waiting
    cases waiting
  | dropped waiting =>
    rw [empty] at waiting
    cases waiting
  | _ => exact empty

end Host

/-! ## The stages -/

/-- The state file and the tree are those of a checkpoint, and no marker is past the phases
that can be aborted. -/
structure Host.Untouched (h : Host) (statePath : StatePath) (file : Option HostFile)
    (tree : TargetTree) : Prop where
  state : h.files statePath = file
  tree : h.tree = tree
  marker : h.MarkerIn statePath (fun _ => True) ApplyAttemptPhase.Precommit

/-- The marker of the wave is in place, and the wave was prepared and validated. -/
structure Host.Committing (h : Host) (statePath : StatePath) (wave : Nat) (attemptId : String) :
    Prop where
  ready : h.Ready wave
  marked : h.Marked statePath attemptId
  aside : h.quarantined = []

/-- The snapshot of the wave is saved and describes the tree. -/
structure Host.Saved (h : Host) (statePath : StatePath) (wave : Nat) (attemptId : String) :
    Prop where
  ready : h.Ready wave
  described : ∃ entries format, h.files statePath = some (.snapshot entries format) ∧
    h.tree = .settled wave entries
  marker : h.MarkerIn statePath (· = attemptId) fun _ => True

namespace HostOp

/-- The operation touches nothing but the markers of a state file, and writes only such
markers there. -/
structure OnMarker (statePath : StatePath) (ids : String → Prop)
    (phases : ApplyAttemptPhase → Prop) (op : HostOp) : Prop where
  about : op.About (· = applyAttemptPath statePath)
  tree : op.SparesTree
  marks : op.MarksOnly statePath ids phases

/-- The operations of an attempt before its commit, and those of its abort. -/
abbrev BeforeCommit (statePath : StatePath) : HostOp → Prop :=
  OnMarker statePath (fun _ => True) ApplyAttemptPhase.Precommit

/-- The operations of a commit and of the state save. -/
def DuringCommit (statePath : StatePath) (op : HostOp) : Prop :=
  op.Gentle ∨ ∃ entries format, op = .saveEntries statePath entries format

/-- The operations that finish an attempt. -/
abbrev AfterSave (statePath : StatePath) (attemptId : String) : HostOp → Prop :=
  OnMarker statePath (· = attemptId) fun _ => True

end HostOp

namespace Host

variable {h h' : Host} {op : HostOp} {reply : Except Report op.Value} {statePath : StatePath}
  {file : Option HostFile} {tree : TargetTree} {wave : Nat} {attemptId : String}

theorem exec_files_about (run : h.exec op reply h')
    (about : op.About (· = applyAttemptPath statePath)) : h'.files statePath = h.files statePath :=
  exec_files_other run fun touched => applyAttemptPath_ne statePath (about _ touched)

theorem Untouched.exec (holds : h.Untouched statePath file tree) (run : h.exec op reply h')
    (allowed : op.BeforeCommit statePath) : h'.Untouched statePath file tree where
  state := (exec_files_about run allowed.about).trans holds.state
  tree := (exec_tree run allowed.tree).trans holds.tree
  marker := holds.marker.exec run allowed.marks

theorem Committing.exec (holds : h.Committing statePath wave attemptId)
    (run : h.exec op reply h') (allowed : op.DuringCommit statePath) :
    h'.Committing statePath wave attemptId := by
  refine ⟨holds.ready.exec run, ?_, exec_quarantined run (fun path same => ?_) holds.aside⟩
  · rcases allowed with gentle | ⟨entries, format, rfl⟩
    · exact exec_marked run gentle holds.marked
    · refine holds.marked.congr (exec_files_other run fun touched => ?_)
      exact applyAttemptPath_ne statePath (Option.some.inj touched)
  · subst same
    rcases allowed with gentle | ⟨entries, format, same⟩
    · exact gentle
    · cases same

theorem Saved.exec (holds : h.Saved statePath wave attemptId) (run : h.exec op reply h')
    (allowed : op.AfterSave statePath attemptId) : h'.Saved statePath wave attemptId := by
  refine ⟨holds.ready.exec run, ?_, holds.marker.exec run allowed.marks⟩
  obtain ⟨entries, format, found, settled⟩ := holds.described
  exact ⟨entries, format, (exec_files_about run allowed.about).trans found,
    (exec_tree run allowed.tree).trans settled⟩

/-- A commit whose snapshot is saved. -/
theorem Committing.saved (holds : h.Committing statePath wave attemptId) {entries : Entries}
    {format : SnapshotFormat} (found : h.files statePath = some (.snapshot entries format))
    (settled : h.tree = .settled wave entries) : h.Saved statePath wave attemptId := by
  refine ⟨holds.ready, ⟨entries, format, found, settled⟩, fun file present => ?_, ?_⟩
  · rcases holds.marked with ⟨header, phase, records, marked⟩ | torn
    · cases marked.symm.trans present
      exact ⟨rfl, trivial⟩
    · cases torn.symm.trans present
      trivial
  · intro file waiting
    rw [holds.aside] at waiting
    cases waiting

end Host

end Duet

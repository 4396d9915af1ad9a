import Duet.Sync.Attempt

/-!
# What the calls of an attempt leave alone

All that an operation can do to a host is listed once, in `Host.Effect`. An operation
changes at most the file it is about (`exec_files_other`). The calls that prepare and commit
an attempt are gentle: they never remove or replace a file, so a staged marker that is on
disk stays there, in whatever phase it is then.
-/

namespace Duet

open Lib Marker

/-! ## What an operation can do -/

/-- The possible effects of an operation, also of one that reports an error. -/
inductive Host.Effect (h : Host) : HostOp → Host → Prop where
  | none (op : HostOp) : Effect h op h
  | validated : Effect h .validateCommit h.noteValidated
  | created {path : StatePath} (file : HostFile) {contents : HostFile}
      (absent : h.files path = .none) (written : contents = file ∨ contents = .other) :
      Effect h (.createMarker path file) (h.write path contents)
  | advanced {path : StatePath} {attemptId : String} {expected : List ApplyAttemptPhase}
      {next : ApplyAttemptPhase} {moved : Host}
      (advances : h.Advances path attemptId expected next moved) :
      Effect h (.setPhase path attemptId expected next) moved
  | preparedNoted {path : StatePath} {attemptId : String} {expected : List ApplyAttemptPhase}
      {moved : Host} (advances : h.Advances path attemptId expected .prepared moved) :
      Effect h (.setPhase path attemptId expected .prepared) moved.notePrepared
  | torn {path : StatePath} {attemptId : String} {expected : List ApplyAttemptPhase}
      {next : ApplyAttemptPhase} {moved : Host}
      (advances : h.Advances path attemptId expected next moved) :
      Effect h (.setPhase path attemptId expected next) (h.write path (.tornMarker attemptId))
  | replaced (path : StatePath) (file : HostFile) :
      Effect h (.replaceMarker path file) (h.write path file)
  | removed (path : StatePath) : Effect h (.removeFile path) (h.erase path)
  | movedAside {path : StatePath} {file : HostFile} (found : h.files path = some file) :
      Effect h (.quarantine path) (h.moveAside path file)
  | movedBack {path : StatePath} {file : HostFile} (waiting : (path, file) ∈ h.quarantined)
      (absent : h.files path = .none) : Effect h (.restore path file) (h.moveBack path file)
  | dropped {path : StatePath} {file : HostFile} (waiting : (path, file) ∈ h.quarantined) :
      Effect h (.unlinkQuarantined path file) (h.dropQuarantined path file)
  | staged {marker : Option StatePath} {h' : Host} (recorded : h.Recorded marker h') :
      Effect h (.stageOutput marker) h'
  | mutated {marker : Option StatePath} {h' : Host}
      (recorded : h.beginMutation.Recorded marker h') : Effect h (.mutate marker) h'
  | settled (entries : Entries) : Effect h (.settle entries) (h.settle entries)
  | saved (path : StatePath) (entries : Entries) (format : SnapshotFormat) :
      Effect h (.saveEntries path entries format) (h.write path (.snapshot entries format))

namespace Host

variable {h h' : Host} {op : HostOp} {reply : Except Report op.Value}

theorem fails_effect (failed : h.Fails op h') : h.Effect op h' := by
  cases op <;> simp only [Fails] at failed
  case createMarker path file =>
    rcases failed with rfl | ⟨absent, rfl | rfl⟩
    · exact .none _
    · exact .created file absent (.inl rfl)
    · exact .created file absent (.inr rfl)
  case setPhase =>
    rcases failed with rfl | ⟨moved, advances, rfl | rfl⟩
    · exact .none _
    · exact .advanced advances
    · exact .torn advances
  case quarantine =>
    rcases failed with rfl | ⟨file, found, rfl⟩
    · exact .none _
    · exact .movedAside found
  case restore =>
    rcases failed with rfl | ⟨waiting, absent, rfl⟩
    · exact .none _
    · exact .movedBack waiting absent
  case stageOutput => exact .staged failed
  case mutate =>
    rcases failed with rfl | recorded
    · exact .none _
    · exact .mutated recorded
  case replaceMarker | removeFile | saveEntries =>
    rcases failed with rfl | rfl <;> constructor
  all_goals
    rw [failed]
    exact .none _

theorem succeeds_effect {value : op.Value} (succeeded : h.Succeeds op value h') :
    h.Effect op h' := by
  cases op <;> simp only [Succeeds] at succeeded
  case createMarker path file =>
    rcases succeeded with ⟨absent, rfl⟩ | ⟨-, rfl⟩
    · exact .created file absent (.inl rfl)
    · exact .none _
  case setPhase path attemptId expected next =>
    obtain ⟨moved, advances, rfl⟩ := succeeded
    split
    next prepared =>
      subst prepared
      exact .preparedNoted advances
    next => exact .advanced advances
  case tryExists | readMarker | localResults =>
    rw [succeeded.1]
    exact .none _
  case quarantine =>
    rw [succeeded.2]
    exact .movedAside succeeded.1
  case restore =>
    rw [succeeded.2.2]
    exact .movedBack succeeded.1 succeeded.2.1
  case unlinkQuarantined =>
    rw [succeeded.2]
    exact .dropped succeeded.1
  case readQuarantined =>
    rw [succeeded.2.2]
    exact .none _
  case stageOutput => exact .staged succeeded
  case mutate => exact .mutated succeeded
  all_goals
    rw [succeeded]
    constructor

/-- An operation has one of its effects. -/
theorem exec_effect (run : h.exec op reply h') : h.Effect op h' := by
  cases reply with
  | ok value => exact succeeds_effect run
  | error error => exact fails_effect run

end Host

/-! ## Frames of the operations -/

namespace HostOp

/-- The file that an operation may change. -/
def touched : HostOp → Option StatePath
  | .createMarker path _ | .setPhase path _ _ _ | .replaceMarker path _ | .removeFile path
  | .quarantine path | .restore path _ | .saveEntries path _ _ => some path
  | .stageOutput marker | .mutate marker => marker
  | _ => none

/-- The operation neither removes a file nor gives it other contents. -/
def Gentle : HostOp → Prop
  | .replaceMarker _ _ | .removeFile _ | .quarantine _ | .saveEntries _ _ _ => False
  | _ => True

/-- The operation touches no file but markers. -/
def MarkersOnly (op : HostOp) : Prop :=
  ∀ path, op.touched = some path → ∃ state, path = applyAttemptPath state

/-- The operation does not change what the target tree holds. -/
def SparesTree : HostOp → Prop
  | .mutate _ | .settle _ => False
  | _ => True

end HostOp

namespace Host

variable {h h' : Host} {op : HostOp} {reply : Except Report op.Value}

theorem Recorded.files_other {marker : Option StatePath} {path : StatePath}
    (recorded : h.Recorded marker h') (ne : marker ≠ some path) : h'.files path = h.files path := by
  rcases recorded with rfl | ⟨target, file, file', rfl, -, -, rfl⟩
  · rfl
  · have away : path ≠ target := fun same => ne (congrArg some same.symm)
    simp [away]

theorem Recorded.tree {marker : Option StatePath} (recorded : h.Recorded marker h') :
    h'.tree = h.tree := by
  rcases recorded with rfl | ⟨target, file, file', -, -, -, rfl⟩ <;> rfl

theorem Advances.files_other {target path : StatePath} {attemptId : String}
    {expected : List ApplyAttemptPhase} {next : ApplyAttemptPhase}
    (advances : h.Advances target attemptId expected next h') (ne : path ≠ target) :
    h'.files path = h.files path := by
  obtain ⟨header, phase, records, -, -, -, rfl⟩ := advances
  simp [ne]

theorem Advances.tree {target : StatePath} {attemptId : String}
    {expected : List ApplyAttemptPhase} {next : ApplyAttemptPhase}
    (advances : h.Advances target attemptId expected next h') : h'.tree = h.tree := by
  obtain ⟨header, phase, records, -, -, -, rfl⟩ := advances
  rfl

/-- A file that an operation is not about stays as it is. -/
theorem exec_files_other {path : StatePath} (run : h.exec op reply h')
    (ne : op.touched ≠ some path) : h'.files path = h.files path := by
  have away : ∀ target, op.touched = some target → path ≠ target := by
    intro target touched same
    exact ne (same ▸ touched)
  cases exec_effect run with
  | advanced advances => exact advances.files_other (away _ rfl)
  | preparedNoted advances => exact advances.files_other (away _ rfl)
  | staged recorded => exact recorded.files_other ne
  | mutated recorded => exact recorded.files_other ne
  | none | validated | settled | dropped => rfl
  | created | torn | replaced | removed | movedAside | movedBack | saved =>
    exact Function.update_of_ne (away _ rfl) _ _

theorem exec_tree (run : h.exec op reply h') (spares : op.SparesTree) : h'.tree = h.tree := by
  cases exec_effect run with
  | advanced advances => exact advances.tree
  | preparedNoted advances => exact advances.tree
  | staged recorded => exact recorded.tree
  | mutated => exact spares.elim
  | settled => exact spares.elim
  | _ => rfl

/-! ## The marker of an attempt stays -/

/-- The recovery marker of a staged attempt is at its path, readable or torn. -/
def Marked (h : Host) (statePath : StatePath) (attemptId : String) : Prop :=
  (∃ header phase records,
    h.files (applyAttemptPath statePath) = some (.stagedMarker header attemptId phase records)) ∨
  h.files (applyAttemptPath statePath) = some (.tornMarker attemptId)

section Marked

variable {statePath : StatePath} {attemptId : String}

theorem Marked.present (marked : h.Marked statePath attemptId) :
    h.files (applyAttemptPath statePath) ≠ none := by
  rcases marked with ⟨header, phase, records, present⟩ | present <;> simp [present]

theorem Marked.congr (marked : h.Marked statePath attemptId)
    (same : h'.files (applyAttemptPath statePath) = h.files (applyAttemptPath statePath)) :
    h'.Marked statePath attemptId := by
  simpa [Marked, same] using marked

theorem Recorded.marked {marker : Option StatePath} (recorded : h.Recorded marker h')
    (marked : h.Marked statePath attemptId) : h'.Marked statePath attemptId := by
  rcases recorded with rfl | ⟨target, file, file', -, found, rewritten, rfl⟩
  · exact marked
  · by_cases same : applyAttemptPath statePath = target
    · subst same
      rcases marked with ⟨header, phase, records, present⟩ | present
      · cases Option.some.inj (found.symm.trans present)
        cases rewritten with
        | staged header attemptId phase records more =>
          exact .inl ⟨header, phase, records ++ more, by simp⟩
        | tear => exact .inr (by simp)
      · cases Option.some.inj (found.symm.trans present)
        cases rewritten
        exact .inr (by simp)
    · exact marked.congr (Function.update_of_ne same _ _)

theorem Advances.marked {target : StatePath} {other : String}
    {expected : List ApplyAttemptPhase} {next : ApplyAttemptPhase}
    (advances : h.Advances target other expected next h')
    (marked : h.Marked statePath attemptId) :
    h'.Marked statePath attemptId ∧ (h.write target (.tornMarker other)).Marked statePath attemptId := by
  obtain ⟨header, phase, records, found, -, -, rfl⟩ := advances
  by_cases same : applyAttemptPath statePath = target
  · subst same
    rcases marked with ⟨header', phase', records', present⟩ | present
    · cases Option.some.inj (found.symm.trans present)
      exact ⟨.inl ⟨header, next, records, by simp⟩, .inr (by simp)⟩
    · cases found.symm.trans present
  · exact ⟨marked.congr (Function.update_of_ne same _ _),
      marked.congr (Function.update_of_ne same _ _)⟩

/-- An operation that removes and replaces nothing leaves the marker of an attempt. -/
theorem exec_marked (run : h.exec op reply h') (gentle : op.Gentle)
    (marked : h.Marked statePath attemptId) : h'.Marked statePath attemptId := by
  cases exec_effect run with
  | advanced advances => exact (advances.marked marked).1
  | preparedNoted advances => exact (advances.marked marked).1
  | torn advances => exact (advances.marked marked).2
  | staged recorded => exact recorded.marked marked
  | mutated recorded => exact recorded.marked marked
  | replaced => exact gentle.elim
  | removed => exact gentle.elim
  | movedAside => exact gentle.elim
  | saved => exact gentle.elim
  | created file absent =>
    refine marked.congr (Function.update_of_ne ?_ _ _)
    rintro rfl
    exact marked.present absent
  | movedBack waiting absent =>
    refine marked.congr (Function.update_of_ne ?_ _ _)
    rintro rfl
    exact marked.present absent
  | none | validated | settled | dropped => exact marked

end Marked

end Host

end Duet

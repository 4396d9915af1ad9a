import Duet.Actions

/-!
# Details of an action

Whether an action transfers file contents, and how: a whole file, or a diff against the
old file of the side that receives it. Both ends of a session compute this on their own.
-/

namespace Duet

inductive ApplyDetailKind where
  | file
  | diff
deriving DecidableEq, Repr

/-- What a side that applies the change expects to receive for it. -/
def applyDetailKindForChange : Change → Option ApplyDetailKind
  | .removed _ => none
  | .added e => if e.isFile then some .file else none
  | .modified e1 e2 =>
    if e1.isFile && e2.isFile && !e1.sameContents e2 then some .diff
    else if !e1.isFile && e2.isFile then some .file
    else none

def applyDetailKind : Action → Option ApplyDetailKind
  | .local change | .resolvedLocal _ change => applyDetailKindForChange change
  | _ => none

inductive SourceDetailKind where
  | file (path : Path)
  | diff (path : Path)
deriving DecidableEq, Repr

/-- What a side serves for a change that it sends to the other side. -/
def sourceDetailKind (action : Action) : Option SourceDetailKind :=
  match action with
  | .remote change | .resolvedRemote _ change =>
    match change with
    | .removed _ => none
    | .added e => if e.isFile then some (.file e.path) else none
    | .modified e1 e2 =>
      if e1.isFile && e2.isFile && !e1.sameContents e2 then some (.diff e1.path)
      else if !e1.isFile && e2.isFile then some (.file e2.path)
      else none
  | _ => none

/-- The regular file that a change puts on the side that applies it. -/
def changeOutputEntry : Change → Except String DirEntryWithMeta
  | .added entry | .modified _ entry =>
    if entry.isFile then .ok entry else .error "action has no regular file output"
  | .removed _ => .error "action has no regular file output"

theorem changeOutputEntry_eq_ok {change : Change} {entry : DirEntryWithMeta}
    (output : changeOutputEntry change = .ok entry) :
    change = .added entry ∨ ∃ old, change = .modified old entry := by
  cases change with
  | removed old => cases output
  | added new =>
    by_cases isFile : new.isFile = true
    · simp only [changeOutputEntry, isFile, if_true, Except.ok.injEq] at output
      exact Or.inl (congrArg Change.added output)
    · simp [changeOutputEntry, isFile] at output
  | modified old new =>
    by_cases isFile : new.isFile = true
    · simp only [changeOutputEntry, isFile, if_true, Except.ok.injEq] at output
      exact Or.inr ⟨old, congrArg (Change.modified old) output⟩
    · simp [changeOutputEntry, isFile] at output

/-- A change with a detail puts a regular file at its path. -/
theorem changeOutputEntry_of_kind {change : Change} {kind : ApplyDetailKind}
    (detail : applyDetailKindForChange change = some kind) :
    ∃ entry, change.newEntry = some entry ∧ changeOutputEntry change = .ok entry := by
  cases change with
  | removed old => cases detail
  | added entry =>
    have isFile : entry.isFile = true := by
      by_contra other
      simp [applyDetailKindForChange, other] at detail
    exact ⟨entry, rfl, if_pos isFile⟩
  | modified old entry =>
    have isFile : entry.isFile = true := by
      by_contra other
      simp [applyDetailKindForChange, other] at detail
    exact ⟨entry, rfl, if_pos isFile⟩

end Duet

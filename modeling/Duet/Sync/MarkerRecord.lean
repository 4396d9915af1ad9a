import Duet.Actions
import Duet.Lib.Utf8
import Duet.Sync.Marker

/-!
# Records of the commit phase

While an attempt commits, its recorder appends lines to the marker. The paths in them are
written as they are displayed, whatever bytes the names hold.
-/

namespace Duet

open Lib Marker

/-! ## Displayed paths -/

/-- The bytes of one component. -/
def Component.bytes : Component → List UInt8
  | .rootDir => ascii "/"
  | .curDir => ascii "."
  | .parentDir => ascii ".."
  | .normal name => name

/-- The bytes of a path. -/
def Path.bytes : Path → List UInt8
  | [] => []
  | [component] => component.bytes
  | .rootDir :: rest => ascii "/" ++ Path.bytes rest
  | component :: rest => component.bytes ++ ascii "/" ++ Path.bytes rest

/-- `path.display()` -/
def Path.display (path : Path) : Bytes := utf8 (fromUtf8Lossy path.bytes)

theorem Path.validUtf8_display (path : Path) : ValidUtf8 path.display := validUtf8_utf8 _

namespace Marker

/-! ## What is recorded -/

/-- The names of the steps that the commit phase records. -/
inductive CommitStep where
  | removeFile
  | createSymlink
  | updateMetadata
  | createDir
  | removeSymlink
  | removeDir
  | renameFile
  | pruneBlocker
deriving DecidableEq, Repr

def CommitStep.asStr : CommitStep → Bytes
  | removeFile => ascii "remove-file"
  | createSymlink => ascii "create-symlink"
  | updateMetadata => ascii "update-metadata"
  | createDir => ascii "create-dir"
  | removeSymlink => ascii "remove-symlink"
  | removeDir => ascii "remove-dir"
  | renameFile => ascii "rename-file"
  | pruneBlocker => ascii "prune-blocker"

/-- `entry_operation("add", entry)` and `entry_operation("remove", entry)` -/
def entryOperation (verb : Bytes) (entry : DirEntryWithMeta) : Bytes :=
  if entry.isDir then verb ++ ascii "-dir"
  else if entry.isSymlink then verb ++ ascii "-symlink"
  else verb ++ ascii "-file"

def changeOperation : Change → Bytes
  | .added entry => entryOperation (ascii "add") entry
  | .removed entry => entryOperation (ascii "remove") entry
  | .modified old new =>
    if old.isFile && new.isFile && !old.sameContents new then ascii "modify-file"
    else if old.isDir && new.isDir then ascii "modify-dir-metadata"
    else if old.isSymlink && new.isSymlink then ascii "modify-symlink"
    else if old.isFile == new.isFile && old.isDir == new.isDir && old.isSymlink == new.isSymlink then
      ascii "modify-metadata"
    else ascii "replace"

/-- One call of the recorder. -/
inductive CommitRecord where
  | stagedFile (path : Path)
  | committedStep (operation : CommitStep) (path : Path)
  | committedAction (action : Action)
  | regularPublication (action : Action) (entry : DirEntryWithMeta)

/-- `format!("staged-file: {}\n", path.display())` -/
def stagedFileLine (path : Path) : Bytes := ascii "staged-file: " ++ path.display ++ [newline]

/-- `format!("committed-step: {} {}\n", operation, path.display())` -/
def committedStepLine (operation : CommitStep) (path : Path) : Bytes :=
  ascii "committed-step: " ++ operation.asStr ++ ascii " " ++ path.display ++ [newline]

/-- `format!("committed-operation: {} {}\n", change_operation(change), path.display())` -/
def committedOperationLine (change : Change) (path : Path) : Bytes :=
  ascii "committed-operation: " ++ changeOperation change ++ ascii " " ++ path.display ++ [newline]

/-- The text that one call of the recorder appends. -/
def CommitRecord.text : CommitRecord → Bytes
  | stagedFile path => stagedFileLine path
  | committedStep operation path => committedStepLine operation path
  | committedAction action =>
    match action.appliedChange with
    | none => []
    | some change => committedOperationLine change action.path
  | regularPublication action entry =>
    match action.appliedChange with
    | none => []
    | some change =>
      committedStepLine .renameFile entry.path ++ committedStepLine .updateMetadata entry.path ++
        committedOperationLine change action.path

/-- The text that a sequence of calls appends. -/
def recordText (records : List CommitRecord) : Bytes := records.flatMap CommitRecord.text

/-- The lines that a sequence of calls appends. -/
def recordLines (records : List CommitRecord) : List Bytes :=
  (splitInclusive newline (recordText records)).map (trimEndMatches newline)

/-! ## The appended text -/

/-- A text of whole lines in UTF-8. -/
structure WholeLines (text : Bytes) : Prop where
  valid : ValidUtf8 text
  ended : ∀ last ∈ text.getLast?, last = newline

theorem WholeLines.nil : WholeLines [] := ⟨⟨[], rfl⟩, by simp⟩

theorem WholeLines.append {front back : Bytes} (left : WholeLines front)
    (right : WholeLines back) : WholeLines (front ++ back) := by
  refine ⟨left.valid.append right.valid, ?_⟩
  intro last member
  rw [List.getLast?_append] at member
  cases found : back.getLast? with
  | none =>
    rw [found, Option.none_or] at member
    exact left.ended last member
  | some other =>
    rw [found, Option.some_or] at member
    cases member
    exact right.ended _ found

/-- A line whose only part that may not be ASCII is a displayed path. -/
theorem wholeLines_of_display {head : Bytes} (asciiHead : IsAscii head) (path : Path) :
    WholeLines (head ++ path.display ++ [newline]) := by
  refine ⟨((validUtf8_of_ascii asciiHead).append path.validUtf8_display).append
    (validUtf8_of_ascii (by decide)), ?_⟩
  intro last member
  simpa using member.symm

theorem ascii_changeOperation (change : Change) : IsAscii (changeOperation change) := by
  cases change <;> simp only [changeOperation, entryOperation]
  all_goals (repeat' split) <;> decide

theorem wholeLines_text (record : CommitRecord) : WholeLines record.text := by
  have step : ∀ operation path, WholeLines (committedStepLine operation path) := by
    intro operation path
    apply wholeLines_of_display
    cases operation <;> decide
  have operation : ∀ change path, WholeLines (committedOperationLine change path) := by
    intro change path
    apply wholeLines_of_display
    exact ((show IsAscii (ascii "committed-operation: ") by decide).append
      (ascii_changeOperation change)).append (by decide)
  cases record with
  | stagedFile path => exact wholeLines_of_display (by decide) path
  | committedStep name path => exact step name path
  | committedAction action =>
    simp only [CommitRecord.text]
    split
    · exact WholeLines.nil
    · exact operation _ _
  | regularPublication action entry =>
    simp only [CommitRecord.text]
    split
    · exact WholeLines.nil
    · exact ((step _ _).append (step _ _)).append (operation _ _)

theorem wholeLines_recordText (records : List CommitRecord) : WholeLines (recordText records) := by
  induction records with
  | nil => exact WholeLines.nil
  | cons record records ih => exact (wholeLines_text record).append ih

end Marker

end Duet

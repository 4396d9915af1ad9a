import Duet.Lib.Effect
import Duet.Path
import Duet.Sync.MarkerTransition
import Mathlib.Data.List.AList

/-!
# System calls

The part of a host that recovery works on: inodes, the entries of the directories among them,
and the calls that read and change them. A retained handle is the identity of the inode it was
opened on. The operating system may refuse any call, and the process may be killed at any.
-/

namespace Duet.Recovery

open Lib Marker

/-! ## Inodes -/

/-- The entries of a directory, each name once. -/
abbrev Entries := AList fun _ : Name => FileIdentity

inductive Inode where
  | directory (entries : Entries) (mode : UInt32)
  | regular (file : MarkerFile) (owner : UInt32)
  | other

structure Disk where
  inode : FileIdentity → Option Inode

namespace Disk

variable (disk : Disk)

def set (identity : FileIdentity) (inode : Inode) : Disk where
  inode other := if other = identity then some inode else disk.inode other

/-- The entries of a directory; what is no directory has none. -/
def entries (dir : FileIdentity) : Entries :=
  match disk.inode dir with
  | some (.directory entries _) => entries
  | _ => ∅

def child (dir : FileIdentity) (name : Name) : Option FileIdentity := (disk.entries dir).lookup name

end Disk

/-- Whether a mode has all of some permission bits. -/
def permits (mode bits : UInt32) : Bool := mode &&& bits = bits

/-! ## Calls on a disk

A process may search, read and change the directories that it owns as their modes say. -/

namespace Disk

variable (disk : Disk)

/-- `fstat` of a retained handle -/
def stat (handle : FileIdentity) : Except String Inode :=
  match disk.inode handle with
  | some inode => .ok inode
  | none => .error "Bad file descriptor"

/-- A directory that may be used with some permission bits, and its mode. -/
def directory (dir : FileIdentity) (bits : UInt32) : Except String (Entries × UInt32) :=
  match disk.inode dir with
  | some (.directory entries mode) =>
    if permits mode bits then .ok (entries, mode) else .error "Permission denied"
  | _ => .error "Not a directory"

/-- `fstatat` without following a symbolic link; `none` is `NotFound`. -/
def statAt (dir : FileIdentity) (name : Name) : Except String (Option (FileIdentity × Inode)) := do
  let (entries, _) ← disk.directory dir 0o100
  match entries.lookup name with
  | none => .ok none
  | some identity => (disk.stat identity).map fun inode => some (identity, inode)

/-- `openat` with `O_RDONLY | O_DIRECTORY | O_NOFOLLOW` -/
def openDirectoryAt (dir : FileIdentity) (name : Name) : Except String FileIdentity := do
  match ← disk.statAt dir name with
  | none => .error "No such file or directory"
  | some (identity, _) => do
    let _ ← disk.directory identity 0o400
    .ok identity

/-- `openat` with `O_RDONLY | O_NOFOLLOW`, and what the handle is a file of -/
def openFileAt (dir : FileIdentity) (name : Name) : Except String (FileIdentity × MarkerFile) := do
  match ← disk.statAt dir name with
  | some (identity, .regular file _) =>
    if permits file.mode 0o400 then .ok (identity, file) else .error "Permission denied"
  | _ => .error "apply recovery marker is invalid or oversized"

/-- `unlinkat` of what is no directory -/
def unlinkAt (dir : FileIdentity) (name : Name) : Except String Disk := do
  let (entries, mode) ← disk.directory dir 0o300
  match entries.lookup name with
  | none => .error "No such file or directory"
  | some identity =>
    match disk.inode identity with
    | some (.directory _ _) => .error "Is a directory"
    | _ => .ok (disk.set dir (.directory (entries.erase name) mode))

/-- `unlinkat` with `AT_REMOVEDIR`; `none` is `NotFound` -/
def removeDirAt (dir : FileIdentity) (name : Name) : Except String (Option Disk) := do
  let (entries, mode) ← disk.directory dir 0o300
  match entries.lookup name with
  | none => .ok none
  | some identity =>
    match disk.inode identity with
    | some (.directory below _) =>
      if below.keys = [] then .ok (some (disk.set dir (.directory (entries.erase name) mode)))
      else .error "Directory not empty"
    | _ => .error "Not a directory"

/-- `renameat` of a file within one directory -/
def renameAt (dir : FileIdentity) (source destination : Name) : Except String Disk := do
  let (entries, mode) ← disk.directory dir 0o300
  match entries.lookup source with
  | none => .error "No such file or directory"
  | some identity =>
    match (entries.lookup destination).bind disk.inode with
    | some (.directory _ _) => .error "Is a directory"
    | _ => .ok (disk.set dir (.directory ((entries.erase source).insert destination identity) mode))

/-- `fchmod` of a directory -/
def setMode (dir : FileIdentity) (mode : UInt32) : Except String Disk := do
  let (entries, _) ← disk.directory dir 0
  .ok (disk.set dir (.directory entries mode))

end Disk

/-! ## Processes -/

inductive Answer where
  | done
  | refused
  | killed
deriving DecidableEq

/-- What a process runs on. Where a path leads, with a symbolic link at its end not followed,
does not change while it runs. -/
structure System where
  answer : Nat → Answer
  leadsTo : Bytes → Option FileIdentity
  euid : UInt32
  nonce : Nat → Nat
  /-- Whether a directory handle that is opened for access only can be synced. -/
  syncsAccess : Bool

/-- The disk, and the number of calls made. -/
structure Machine where
  disk : Disk
  calls : Nat

/-- Why a process stopped: an error it reports, or a signal. -/
inductive Stop where
  | error (text : String)
  | killed

abbrev Calls (α : Type) := Effect Stop Machine α

namespace Calls

/-- An error of the program itself. -/
def fail {α : Type} (text : String) : Calls α := Effect.fail (.error text)

/-- A check that is no system call. -/
def check {α : Type} (result : Except String α) : Calls α := Effect.check (result.mapError .error)

/-- The result of a part of the program whose error is handled. -/
def attempt {α : Type} (part : Calls α) : Calls (Except String α) := fun s =>
  match part s with
  | (.ok a, t) => (.ok (.ok a), t)
  | (.error (.error text), t) => (.ok (.error text), t)
  | (.error .killed, t) => (.error .killed, t)

end Calls

section Calls

variable (system : System)

/-- One system call, which changes the disk and answers. -/
def call {α : Type} (change : Disk → Except String (α × Disk)) : Calls α := fun s =>
  match system.answer s.calls with
  | .killed => (.error .killed, { s with calls := s.calls + 1 })
  | .refused => (.error (.error "Input/output error"), { s with calls := s.calls + 1 })
  | .done =>
    match change s.disk with
    | .ok (a, disk) => (.ok a, ⟨disk, s.calls + 1⟩)
    | .error text => (.error (.error text), { s with calls := s.calls + 1 })

/-- One system call that only looks at the disk. -/
def query {α : Type} (look : Disk → Except String α) : Calls α :=
  call system fun disk => (look disk).map fun a => (a, disk)

/-- One system call that only changes the disk. -/
def update (change : Disk → Except String Disk) : Calls Unit :=
  call system fun disk => (change disk).map fun disk => ((), disk)

/-- `symlink_metadata` -/
def symlinkMetadata (path : Bytes) : Calls (FileIdentity × Inode) :=
  query system fun disk =>
    match system.leadsTo path with
    | none => .error "No such file or directory"
    | some identity => (disk.stat identity).map fun inode => (identity, inode)

/-- `fsync` -/
def syncAll : Calls Unit := query system fun _ => .ok ()

end Calls

/-- The checks of `path_component_cstring` -/
def pathComponentCString (component : Bytes) (description : String) : Except String Name :=
  if component = [] ∨ component = ascii "." ∨ component = ascii ".." ∨ (47 : UInt8) ∈ component then
    .error (description ++ " is not an exact path component")
  else if (0 : UInt8) ∈ component then
    .error (description ++ " contains an interior NUL byte")
  else
    .ok component

/-! ## Directories that are kept open -/

section Directories

variable (system : System)

def openDirectoryForAccess (path : Bytes) : Calls FileIdentity :=
  query system fun disk =>
    match system.leadsTo path with
    | none => .error "failed to retain access to directory"
    | some identity => do
      let _ ← disk.directory identity 0
      .ok identity

def verifyDirectoryHandleIdentity (directory expected : FileIdentity) (description : String) :
    Calls Unit := do
  let _ ← query system fun disk => disk.stat directory
  if directory = expected then pure ()
  else Calls.fail (description ++ " path no longer refers to the recorded directory")

def Inode.isDir : Inode → Bool
  | .directory _ _ => true
  | _ => false

def verifyPathIdentity (path : Bytes) (retained : FileIdentity) (description : String) :
    Calls Unit := do
  let _ ← query system fun disk => disk.stat retained
  let (actual, inode) ← symlinkMetadata system path
  if inode.isDir ∧ actual = retained then pure ()
  else Calls.fail (description ++ " path no longer refers to the retained directory")

def verifyExpected (directory : FileIdentity) (expected : Option FileIdentity)
    (description : String) : Calls Unit :=
  match expected with
  | some expected => verifyDirectoryHandleIdentity system directory expected description
  | none => pure ()

def reopenDirectory (path : Bytes) : Calls FileIdentity :=
  query system fun disk =>
    match system.leadsTo path with
    | none => .error "unable to reopen directory for syncing"
    | some identity => do
      let _ ← disk.directory identity 0o400
      .ok identity

/-- The error of a directory that could not be opened once more, after its mode was set back. -/
def failAndRestoreMode (access : FileIdentity) (originalMode : UInt32) (error : String) :
    Calls Unit := do
  match ← Calls.attempt (update system fun disk => disk.setMode access originalMode) with
  | .ok _ => Calls.fail error
  | .error restore => Calls.fail (error ++ "; additionally failed to restore mode: " ++ restore)

/-- The part of `sync_retained_directory` for a handle that cannot be synced itself: the
directory is opened once more, readable for that moment. -/
def syncReadable (path : Bytes) (access : FileIdentity) (expected : Option FileIdentity)
    (description : String) : Calls Unit := do
  let (_, originalMode) ← query system fun disk => disk.directory access 0
  verifyPathIdentity system path access description
  update system fun disk => disk.setMode access (originalMode ||| 0o500)
  match ← Calls.attempt (reopenDirectory system path) with
  | .error error => failAndRestoreMode system access originalMode error
  | .ok readable => do
    match ← Calls.attempt (update system fun disk => disk.setMode access originalMode) with
    | .error error => do
      let _ ← Calls.attempt (update system fun disk => disk.setMode access originalMode)
      Calls.fail error
    | .ok _ => do
      let _ ← query system fun disk => disk.stat access
      let inode ← query system fun disk => disk.stat readable
      if ¬ (inode.isDir ∧ readable = access) then
        Calls.fail "reopened directory is not the retained directory"
      else do
        verifyExpected system readable expected description
        verifyPathIdentity system path readable description
        syncAll system
        verifyPathIdentity system path readable description

def syncRetainedDirectory (path : Bytes) (access : FileIdentity) (expected : Option FileIdentity)
    (description : String) : Calls Unit := do
  verifyPathIdentity system path access description
  verifyExpected system access expected description
  if system.syncsAccess then do
    syncAll system
    verifyPathIdentity system path access description
  else
    syncReadable system path access expected description

end Directories

end Duet.Recovery

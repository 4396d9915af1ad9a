import Duet.Lib.Effect
import Duet.Lib.Utf8
import Duet.Sync.RemovalBlockers

/-!
# Pruning what blocks the removal of a directory

Before a directory is removed, the disposable entries that are left in it are deleted.
A file is unlinked. A directory is checked once more, gets a temporary name next to its
own, and is deleted from the bottom up under that name. A failed run leaves the tree as
it is at that point.
-/

namespace Duet

open Lib

/-- What the operating system does with a call, and what is behind a symbolic link. -/
structure Kernel where
  refuses : SysCall → Bool
  resolves : Path → Bool
  processId : Nat

/-- The tree below the base, and the counter of the temporary names. -/
structure Disk where
  tree : DirectoryTree
  tempOutputCounter : Nat

abbrev Pruning (α : Type) := Effect RemovalError Disk α

/-- A step of the pruning that only looks at the tree. -/
def inspect {α : Type} (look : DirectoryTree → Removes α) : Pruning α := do
  let disk ← Effect.read
  Effect.check (look disk.tree)

section Calls

variable (kernel : Kernel)

def call (syscall : SysCall) : Pruning Unit :=
  if kernel.refuses syscall then Effect.fail (.failed syscall) else pure ()

/-- `fs::remove_file` -/
def removeFile (path : Path) : Pruning Unit := do
  call kernel (.unlink path)
  let disk ← Effect.read
  match disk.tree.entry? path with
  | some node =>
    if node.isDir then Effect.fail (.failed (.unlink path))
    else Effect.write { disk with tree := disk.tree.outside path }
  | none => Effect.fail (.failed (.unlink path))

/-- `fs::remove_dir` -/
def removeDir (path : Path) : Pruning Unit := do
  call kernel (.rmdir path)
  let disk ← Effect.read
  match disk.tree.entry? path with
  | some node =>
    if node.isDir && (disk.tree.readDir path).isEmpty then
      Effect.write { disk with tree := disk.tree.outside path }
    else Effect.fail (.failed (.rmdir path))
  | none => Effect.fail (.failed (.rmdir path))

/-- `fs::rename` of an entry to a free name in the same directory. -/
def renameAside (dir : Path) (old new : Name) : Pruning Unit := do
  let syscall := SysCall.rename (dir ++ [.normal old]) (dir ++ [.normal new])
  call kernel syscall
  let disk ← Effect.read
  if can : disk.tree.CanRename dir old new then
    Effect.write { disk with tree := disk.tree.rename dir old new can }
  else Effect.fail (.failed syscall)

/-- `try_exists` looks behind symbolic links. -/
def Kernel.tryExists (tree : DirectoryTree) (path : Path) : Bool :=
  match tree.entry? path with
  | some node => match node.metadata.fileType with
    | .symlink _ => kernel.resolves path
    | _ => true
  | none => false

/-- `.duet-prune-PROCESS-COUNTER-NAME` -/
def Kernel.pruneTempName (counter : Nat) (filename : Name) : Name :=
  utf8 s!".duet-prune-{kernel.processId}-{counter}-".toList ++ utf8 (fromUtf8Lossy filename)

/-- The attempts that are left to find a name that is not taken. -/
def ignoredPruneTempPath (dir : Path) (filename : Name) : Nat → Pruning Name
  | 0 => Effect.fail (.noTempPath (dir ++ [.normal filename]))
  | attempts + 1 => do
    let disk ← Effect.read
    let new := kernel.pruneTempName disk.tempOutputCounter filename
    Effect.write { disk with tempOutputCounter := disk.tempOutputCounter + 1 }
    if kernel.tryExists disk.tree (dir ++ [.normal new]) then
      ignoredPruneTempPath dir filename attempts
    else pure new

/-- Delete what lies at or below a path, from the bottom up. -/
def removeQuarantinedIgnoredPath (baseDev : UInt64) : Nat → Path → Pruning Unit
  | 0, _ => pure ()
  | levels + 1, path => do
    let disk ← Effect.read
    match disk.tree.entry? path with
    | none => Effect.fail (.missing path)
    | some node =>
      if !node.isDir then removeFile kernel path
      else if node.metadata.dev ≠ baseDev then Effect.fail (.otherFilesystem path)
      else do
        (disk.tree.readDir path).forM fun child =>
          if child.isDir then removeQuarantinedIgnoredPath baseDev levels child.path
          else removeFile kernel child.path
        removeDir kernel path

end Calls

section Prune

variable (kernel : Kernel) (policy : RemovalBlockerPolicy)

def removeIgnoredDirAllSameDevice (path : Path) : Pruning Unit := do
  inspect fun tree => preflightPrunableIgnoredDir policy tree tree.levels path
  match path.getLast? with
  | some (.normal filename) =>
    let temp ← ignoredPruneTempPath kernel path.dropLast filename 100
    let tempPath := path.dropLast ++ [.normal temp]
    call kernel (.recordStaged tempPath)
    renameAside kernel path.dropLast filename temp
    let disk ← Effect.read
    removeQuarantinedIgnoredPath kernel disk.tree.dev disk.tree.levels tempPath
  | _ => Effect.fail (.noTempPath path)

variable (removedPaths : List Path)

/-- One entry of a directory that is pruned. -/
def pruneChild (child : Node) : Pruning Unit := do
  if child.isDir then removeIgnoredDirAllSameDevice kernel policy child.path
  else removeFile kernel child.path
  call kernel (.recordCommitted "prune-blocker" child.path)

/-- Delete the disposable entries of a directory, and of the removed directories in it. -/
def pruneIgnoredRemovalBlockers : Nat → Path → Pruning Unit
  | 0, _ => pure ()
  | levels + 1, dirname => do
    let children ← inspect fun tree => tree.openDir dirname
    children.forM fun child =>
      if removedPaths.contains child.path then
        if child.isDir then pruneIgnoredRemovalBlockers levels child.path else pure ()
      else if policy.shouldPrune (policy.classify child.path) then
        pruneChild kernel policy child
      else
        Effect.fail
          (.blocker dirname child.path (policy.classify child.path) policy.pruneIgnored)

end Prune

end Duet

import Duet.Lib.Fallible
import Duet.Scan.Tree

/-!
# What blocks the removal of a directory

A directory can be removed when all that is left in it is removed too. An entry of it
that the plan does not remove is a blocker, unless its name says that it is disposable
and the profile does not exclude it. The report lists the blockers of all removed
directories, and the preflight fails at the first one that is not disposable.
-/

namespace Duet

open Lib

structure ScanPolicy where
  locations : Locations
  ignore : List String
  prune : List String
  excludes : List Path

structure ApplyOptions where
  pruneIgnored : Bool
deriving DecidableEq

/-! ## Classification -/

inductive RemovalBlockerType where
  | ignored
  | prune
  | excluded
  | unexpected
deriving DecidableEq

/-- Why an entry is still there, with the pattern that its name matches. -/
inductive RemovalBlockerKind where
  | ignored (pattern : String)
  | prune (pattern : String)
  | excluded
  | unexpected
deriving DecidableEq

namespace RemovalBlockerKind

def blockerType : RemovalBlockerKind → RemovalBlockerType
  | .ignored _ => .ignored
  | .prune _ => .prune
  | .excluded => .excluded
  | .unexpected => .unexpected

def pattern : RemovalBlockerKind → Option String
  | .ignored pattern | .prune pattern => some pattern
  | .excluded | .unexpected => none

end RemovalBlockerKind

/-- A system call that changes the tree, or records what is being done to it. -/
inductive SysCall where
  | unlink (path : Path)
  | rmdir (path : Path)
  | rename (path temp : Path)
  | recordStaged (temp : Path)
  | recordCommitted (step : String) (path : Path)
deriving DecidableEq

/-- What the checks before a removal and the removal itself can fail with. -/
inductive RemovalError where
  /-- invalid pattern of the described kind -/
  | invalidPattern (kind pattern : String)
  | invalidPath (cause : ValidationError)
  /-- unable to inspect a directory removal target -/
  | uninspectable (path : Path)
  /-- unable to read a directory -/
  | unreadable (dir : Path)
  /-- the directory is not empty, and the child of this kind would prevent removal -/
  | blocker (dirname child : Path) (kind : RemovalBlockerKind) (pruneIgnored : Bool)
  /-- the parent of a pruned child is not writable -/
  | parentNotWritable (parent : Path)
  /-- failed to read metadata -/
  | missing (path : Path)
  /-- the directory is on another filesystem; refusing to prune it -/
  | otherFilesystem (path : Path)
  /-- the directory is not writable for pruning -/
  | notWritable (path : Path)
  /-- failed to choose a temporary prune path -/
  | noTempPath (path : Path)
  /-- the operating system does not do what the call asks for -/
  | failed (call : SysCall)

abbrev Removes (α : Type) := Except RemovalError α

structure RemovalBlocker where
  parent : Path
  child : Path
  kind : RemovalBlockerType
  pattern : Option String
  prunable : Bool
deriving DecidableEq

structure ApplyPreflightReport where
  blockers : List RemovalBlocker
deriving DecidableEq

def ApplyPreflightReport.hasUnprunableBlockers (report : ApplyPreflightReport) : Bool :=
  report.blockers.any fun blocker => !blocker.prunable

/-- A pattern with its compiled form, which decides on file names and matches none that is
not a text. -/
abbrev CompiledPattern := String × (Name → Bool)

structure RemovalBlockerPolicy where
  locations : Locations
  ignore : List CompiledPattern
  prune : List CompiledPattern
  pruneIgnored : Bool
  excludes : List Path

def compilePatterns (globToRegex : String → Option (Name → Bool)) (patterns : List String)
    (kind : String) : Removes (List CompiledPattern) :=
  patterns.mapM fun pattern =>
    match globToRegex pattern with
    | some regex => .ok (pattern, regex)
    | none => .error (.invalidPattern kind pattern)

def locationApplies (location relativePath : Path) : Bool :=
  location.isEmpty || location = [.curDir] || relativePath = location ||
    relativePath.startsWith location

def pathSpecificity (path : Path) : Nat :=
  if path = [] ∨ path = [.curDir] then 0 else path.length

/-- One step of the search for the most specific rule; the first of two equals stays. -/
def moreSpecific (relativePath : Path) (best : Option Location) (location : Location) :
    Option Location :=
  if locationApplies location.path relativePath then
    match best with
    | some best =>
      if pathSpecificity location.path > pathSpecificity best.path then some location
      else some best
    | none => some location
  else best

namespace RemovalBlockerPolicy

def new (globToRegex : String → Option (Name → Bool)) (scanPolicy : Option ScanPolicy)
    (applyOptions : ApplyOptions) : Removes RemovalBlockerPolicy :=
  match scanPolicy with
  | none => .ok ⟨[], [], [], applyOptions.pruneIgnored, []⟩
  | some scanPolicy => do
    let ignore ← compilePatterns globToRegex scanPolicy.ignore "ignore"
    let prune ← compilePatterns globToRegex scanPolicy.prune "prune"
    pure ⟨canonicalize scanPolicy.locations, ignore, prune, applyOptions.pruneIgnored,
      scanPolicy.excludes⟩

def isExcluded (policy : RemovalBlockerPolicy) (relativePath : Path) : Bool :=
  if policy.excludes.any fun exclude => relativePath.startsWith exclude then true
  else ((policy.locations.foldl (moreSpecific relativePath) none).map Location.isExclude).getD false

def matchingPattern (patterns : List CompiledPattern) (relativePath : Path) : Option String :=
  match relativePath.getLast? with
  | some (.normal filename) => (patterns.find? fun p => p.2 filename).map Prod.fst
  | _ => none

def classify (policy : RemovalBlockerPolicy) (relativePath : Path) : RemovalBlockerKind :=
  if policy.excludes.any fun exclude => relativePath.startsWith exclude then .excluded
  else if policy.isExcluded relativePath then .excluded
  else match matchingPattern policy.prune relativePath with
    | some pattern => .prune pattern
    | none => match matchingPattern policy.ignore relativePath with
      | some pattern => .ignored pattern
      | none => .unexpected

def shouldPrune (policy : RemovalBlockerPolicy) (kind : RemovalBlockerKind) : Bool :=
  match kind with
  | .prune _ => true
  | .ignored _ => policy.pruneIgnored
  | _ => false

end RemovalBlockerPolicy

/-! ## Reading the tree -/

def ownerWriteExecute (mode : UInt32) : Bool := mode &&& 0o300 == 0o300

/-- `base.join(path)` of a path that names something below the base. A path is relative to
the base here, without the components that name the current directory. -/
def safeJoin (path : Path) : Removes Path :=
  match validateRelativePath path with
  | .ok () => .ok (canonicalRelativePath path)
  | .error cause => .error (.invalidPath cause)

namespace DirectoryTree

/-- Nothing is found through a symbolic link here. -/
def symlinkMetadata (tree : DirectoryTree) (path : Path) : Removes Metadata :=
  match tree.entry? path with
  | some node => .ok node.metadata
  | none => .error (.missing path)

/-- A path that is not there is no directory; one below a file cannot be looked up. -/
def isDirectoryWithoutFollowing (tree : DirectoryTree) (path : Path) : Removes Bool :=
  match tree.entry? path with
  | some node => .ok node.isDir
  | none =>
    if tree.nodes.any fun node => path.startsWith node.path &&
        (node.metadata.fileType = .file || node.isSpecial) then .error (.uninspectable path)
    else .ok false

/-- `fs::read_dir` -/
def openDir (tree : DirectoryTree) (dir : Path) : Removes (List Node) :=
  match tree.entry? dir with
  | some node => if node.isDir then .ok (tree.readDir dir) else .error (.unreadable dir)
  | none => .error (.unreadable dir)

end DirectoryTree

/-! ## The checks of a child that is pruned -/

section Checks

variable (policy : RemovalBlockerPolicy) (tree : DirectoryTree)

def preflightPruneUnlinkParent (path : Path) : Removes Unit := do
  let metadata ← tree.symlinkMetadata path.dropLast
  if !ownerWriteExecute metadata.mode then .error (.parentNotWritable path.dropLast) else .ok ()

/-- The recursion goes down as many levels as the tree has. -/
def preflightPrunableIgnoredDir : Nat → Path → Removes Unit
  | 0, _ => .ok ()
  | levels + 1, path => do
    let metadata ← tree.symlinkMetadata path
    if metadata.dev ≠ tree.dev then .error (.otherFilesystem path)
    else if !ownerWriteExecute metadata.mode then .error (.notWritable path)
    else
      let children ← tree.openDir path
      children.forM fun child =>
        if policy.isExcluded child.path then
          .error (.blocker path child.path .excluded policy.pruneIgnored)
        else if child.isDir then preflightPrunableIgnoredDir levels child.path
        else .ok ()

def preflightPrunableIgnoredPath (path : Path) (isDir : Bool) : Removes Unit := do
  preflightPruneUnlinkParent tree path
  if isDir then preflightPrunableIgnoredDir policy tree tree.levels path else .ok ()

end Checks

/-! ## Report and preflight -/

section Traversals

variable (policy : RemovalBlockerPolicy) (tree : DirectoryTree) (removedPaths : List Path)

/-- The blockers of one directory and of the removed directories in it. -/
def collectRemovedDirectoryBlockers : Nat → Path → Removes (List RemovalBlocker)
  | 0, _ => .ok []
  | levels + 1, dirname => do
    let children ← tree.openDir dirname
    let found ← children.mapM fun child =>
      if removedPaths.contains child.path then
        if child.isDir then collectRemovedDirectoryBlockers levels child.path else .ok []
      else do
        let kind := policy.classify child.path
        if policy.shouldPrune kind then
          preflightPrunableIgnoredPath policy tree child.path child.isDir
        pure [⟨dirname, child.path, kind.blockerType, kind.pattern, policy.shouldPrune kind⟩]
    pure found.flatten

def removalBlockerReport : Removes ApplyPreflightReport := do
  let found ← removedPaths.mapM fun path => do
    let dirname ← safeJoin path
    if ← tree.isDirectoryWithoutFollowing dirname then
      collectRemovedDirectoryBlockers policy tree removedPaths tree.levels dirname
    else pure []
  pure ⟨found.flatten⟩

def preflightRemovedDirectoryContents : Nat → Path → Removes Unit
  | 0, _ => .ok ()
  | levels + 1, dirname => do
    let children ← tree.openDir dirname
    children.forM fun child =>
      if removedPaths.contains child.path then
        if child.isDir then preflightRemovedDirectoryContents levels child.path else .ok ()
      else
        let kind := policy.classify child.path
        if policy.shouldPrune kind then
          preflightPrunableIgnoredPath policy tree child.path child.isDir
        else .error (.blocker dirname child.path kind policy.pruneIgnored)

def preflightRemovedDirectories : Removes Unit :=
  removedPaths.forM fun path => do
    let dirname ← safeJoin path
    if ← tree.isDirectoryWithoutFollowing dirname then
      preflightRemovedDirectoryContents policy tree removedPaths tree.levels dirname
    else pure ()

end Traversals

end Duet

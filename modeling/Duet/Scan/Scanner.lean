import Duet.Scan.Entry
import Duet.Scan.Location
import Mathlib.Data.List.Destutter
import Mathlib.Logic.Relation

/-!
# The scanner

Directory jobs walk a tree top down. Every job carries a range of the sorted rules, the
ones at or below its directory, and the index of the rule that governs the directory.
A child is reported when its rule includes it, and descended into unless it is excluded
and nothing below it is included. The scheduler runs up to `limit` jobs at a time.
-/

namespace Duet

open Lib

structure ScanScope where
  restrict : Path
  excludes : List Path
deriving DecidableEq

namespace ScanScope

/-- Keep an exclude unless one that was kept before is above it. -/
def compact (compacted : List Path) (exclude : Path) : List Path :=
  if compacted.any fun ancestor => exclude.startsWith ancestor then compacted
  else compacted ++ [exclude]

def new (restrict : Path) (excludes : List Path) : ScanScope where
  restrict := restrict
  excludes :=
    ((excludes.mergeSort fun a b => a ≤ b).destutter fun a b => a ≠ b).foldl compact []

def isExcluded (scope : ScanScope) (path : Path) : Bool :=
  scope.excludes.any fun exclude => path.startsWith exclude

def selected (scope : ScanScope) (path : Path) : Bool :=
  path.startsWith scope.restrict && !scope.isExcluded path

def relevant (scope : ScanScope) (path : Path) : Bool :=
  (path.startsWith scope.restrict || scope.restrict.startsWith path) && !scope.isExcluded path

end ScanScope

/-! ## The tree that is scanned -/

inductive FileType where
  | directory
  | file
  | symlink (target : Path)
  | special
deriving DecidableEq

structure Metadata where
  fileType : FileType
  size : UInt64
  mtime : Int64
  ino : UInt64
  mode : UInt32
  dev : UInt64
deriving DecidableEq

/-- An entry of a tree, with its path below the base. -/
structure Node where
  path : Path
  metadata : Metadata
deriving DecidableEq

namespace Node

def isDir (node : Node) : Bool := node.metadata.fileType = .directory

def isSpecial (node : Node) : Bool := node.metadata.fileType = .special

/-- What the scan records for an entry. -/
def toEntry (node : Node) : DirEntryWithMeta where
  path := node.path
  size := node.metadata.size
  mtime := node.metadata.mtime
  ino := node.metadata.ino
  mode := node.metadata.mode
  target := match node.metadata.fileType with
    | .symlink target => some target
    | _ => none
  isDir := node.isDir
  checksum := 0
  digest := none

end Node

/-- A finite tree below a base directory: every entry has a name of its own in a
directory, which is the base itself or another entry. -/
structure DirectoryTree where
  nodes : List Node
  dev : UInt64
  nodup : (nodes.map Node.path).Nodup
  named : ∀ node ∈ nodes, ∃ dir name, node.path = dir ++ [.normal name] ∧
    (dir = [] ∨ ∃ parent ∈ nodes, parent.path = dir ∧ parent.isDir = true)

/-- The entries of one directory, in the order in which they are read. -/
def DirectoryTree.readDir (tree : DirectoryTree) (dir : Path) : List Node :=
  tree.nodes.filter fun node => node.path.dropLast = dir

/-! ## Rule ranges -/

structure ParentFromTo where
  parent : Nat
  from_ : Nat
  to_ : Nat
deriving DecidableEq

/-- `locations[i]`; every index that the scanner uses is in range. -/
def ruleAt (locations : Locations) (i : Nat) : Location := locations.getD i (.exclude [])

/-- The first index from `from_` on whose rule lies at or below `path`. -/
def skipForeign (locations : Locations) (path : Path) (from_ to_ : Nat) : Nat :=
  if from_ ≤ to_ ∧ ¬ (ruleAt locations from_).path.startsWith path then
    skipForeign locations path (from_ + 1) to_
  else from_
termination_by to_ + 1 - from_

/-- The last index of the rules in a row that lie at or below `path`. -/
def extendTo (locations : Locations) (path : Path) (to_ parentTo : Nat) : Nat :=
  if to_ < parentTo ∧ (ruleAt locations (to_ + 1)).path.startsWith path then
    extendTo locations path (to_ + 1) parentTo
  else to_
termination_by parentTo - to_

def narrowParentFromTo (pft : ParentFromTo) (path : Path) (locations : Locations) :
    ParentFromTo :=
  let from_ := skipForeign locations path pft.from_ pft.to_
  let to_ := if from_ ≤ pft.to_ then extendTo locations path from_ pft.to_ else pft.to_
  let parent :=
    if from_ ≤ to_ ∧ (ruleAt locations from_).path = path then from_ else pft.parent
  ⟨parent, from_, to_⟩

/-- The loop of `find_parent` from `from_` on. -/
def findRule (path : Path) (locations : Locations) (parent from_ to_ : Nat) : Location :=
  if from_ ≤ to_ ∧ from_ < locations.length then
    if (ruleAt locations from_).path = path then ruleAt locations from_
    else findRule path locations parent (from_ + 1) to_
  else ruleAt locations parent
termination_by to_ + 1 - from_

def findParent (path : Path) (locations : Locations) (pft : ParentFromTo) : Location :=
  findRule path locations pft.parent pft.from_ pft.to_

/-- Whether the range holds an include below `path` itself. -/
def hasDescendantIncludes (locations : Locations) (path : Path) (pft : ParentFromTo) : Bool :=
  (List.range' pft.from_ (pft.to_ + 1 - pft.from_)).any fun i =>
    (ruleAt locations i).isInclude && (ruleAt locations i).path ≠ path

/-! ## Jobs -/

/-- `ignore` decides on file names, as the compiled patterns do. -/
structure ScanContext where
  locations : Locations
  scope : ScanScope
  base : Path
  ignore : Name → Bool
  dev : UInt64

structure ScanJob where
  path : Path
  pft : ParentFromTo
deriving DecidableEq

inductive ScanError where
  | unsupportedSpecialFile (path : Path)
  | crossesFilesystemBoundary (path : Path)
deriving DecidableEq

/-- `path.strip_prefix(base)`, for a path below the base. -/
def relative (base path : Path) : Path := path.drop base.length

def isMatch (ignore : Name → Bool) (path : Path) : Bool :=
  match path.getLast? with
  | some (.normal name) => ignore name
  | _ => false

/-- One child of a directory: the job to descend into it and the entry to report. -/
def scanChild (context : ScanContext) (pft : ParentFromTo) (child : Node) :
    Except ScanError (Option ScanJob × Option DirEntryWithMeta) :=
  let path := context.base ++ child.path
  let relativePath := relative context.base path
  if context.scope.isExcluded relativePath then .ok (none, none)
  else if isMatch context.ignore path then .ok (none, none)
  else
    let location := findParent path context.locations pft
    let childPft := narrowParentFromTo pft path context.locations
    if location.isExclude && !hasDescendantIncludes context.locations path childPft then
      .ok (none, none)
    else if child.isSpecial then
      if context.scope.selected relativePath then .error (.unsupportedSpecialFile path)
      else .ok (none, none)
    else if child.isDir && context.dev != child.metadata.dev &&
        context.scope.relevant relativePath then
      .error (.crossesFilesystemBoundary path)
    else
      let job := if child.isDir && context.dev == child.metadata.dev then some ⟨path, pft⟩ else none
      if location.isExclude then .ok (job, none)
      else if context.scope.selected relativePath && context.dev == child.metadata.dev then
        .ok (job, some child.toEntry)
      else .ok (job, none)

/-- The jobs for the children of a directory, and the entries that it sends. -/
def scanOneDirectory (tree : DirectoryTree) (context : ScanContext) (job : ScanJob) :
    Except ScanError (List ScanJob × List DirEntryWithMeta) :=
  let relativePath := relative context.base job.path
  if context.scope.isExcluded relativePath then .ok ([], [])
  else if !context.scope.relevant relativePath then .ok ([], [])
  else
    let pft := narrowParentFromTo job.pft job.path context.locations
    if (ruleAt context.locations pft.parent).isExclude && pft.from_ > pft.to_ then .ok ([], [])
    else do
      let results ← (tree.readDir relativePath).mapM (scanChild context pft)
      pure (results.filterMap Prod.fst, results.filterMap Prod.snd)

/-! ## The scheduler -/

/-- An active job has entries left to send, and children for the queue when it ends. -/
structure ActiveJob where
  entries : List DirEntryWithMeta
  children : List ScanJob
deriving DecidableEq

structure ScanState where
  pending : List ScanJob
  active : List ActiveJob
  sent : List DirEntryWithMeta
deriving DecidableEq

def sortJobs (children : List ScanJob) : List ScanJob :=
  children.mergeSort fun a b => decide (a.path ≤ b.path)

/-- One step of the scheduler: start the next job while there is room, let some active
job send its next entry, or let one end. Jobs may end in any order. -/
inductive ScanStep (tree : DirectoryTree) (context : ScanContext) (limit : Nat) :
    ScanState → ScanState → Prop
  | start {job pending active sent children entries} (room : active.length < limit)
      (scanned : scanOneDirectory tree context job = .ok (children, entries)) :
      ScanStep tree context limit ⟨job :: pending, active, sent⟩
        ⟨pending, active ++ [⟨entries, children⟩], sent⟩
  | send {pending before after sent entry entries children} :
      ScanStep tree context limit
        ⟨pending, before ++ ⟨entry :: entries, children⟩ :: after, sent⟩
        ⟨pending, before ++ ⟨entries, children⟩ :: after, sent ++ [entry]⟩
  | finish {pending before after sent children} :
      ScanStep tree context limit
        ⟨pending, before ++ ⟨[], children⟩ :: after, sent⟩
        ⟨pending ++ sortJobs children, before ++ after, sent⟩

/-- The scheduler returns when nothing is pending or active. -/
def ScanState.Done (state : ScanState) : Prop := state.pending = [] ∧ state.active = []

instance (state : ScanState) : Decidable state.Done := inferInstanceAs (Decidable (_ ∧ _))

/-- What `scan_scope_with_limit` starts the scheduler with, unless the restriction
itself is excluded. The source asks for a nonempty list of rules here. -/
def scanContext (tree : DirectoryTree) (base : Path) (scope : ScanScope) (locations : Locations)
    (ignore : Name → Bool) : ScanContext where
  locations := prefixedLocations base locations
  scope := scope
  base := base
  ignore := ignore
  dev := tree.dev

def initialScan (base : Path) (locations : Locations) : ScanState where
  pending := [⟨base, ⟨0, 0, (prefixedLocations base locations).length - 1⟩⟩]
  active := []
  sent := []

/-- The states that a scan can be in. A scan whose restriction is excluded is done at
once. -/
def ScanReaches (tree : DirectoryTree) (base : Path) (scope : ScanScope) (locations : Locations)
    (ignore : Name → Bool) (limit : Nat) (state : ScanState) : Prop :=
  if scope.isExcluded scope.restrict then state = ⟨[], [], []⟩
  else
    Relation.ReflTransGen (ScanStep tree (scanContext tree base scope locations ignore) limit)
      (initialScan base locations) state

end Duet

import Duet.Sync.Validate
import Mathlib.Data.List.Basic

/-!
# The bytes of a path

A path arrives as bytes. The program compares, joins and checks it through the iterator over its
components, which leaves out repeated slashes, slashes at the end and every `.` but a leading one;
one of its checks reads the bytes themselves.
-/

namespace Duet

abbrev PathBuf := List UInt8

namespace PathBuf

def slash : UInt8 := 47

def dot : UInt8 := 46

/-- The bytes between the slashes. -/
def pieces (path : PathBuf) : List Name := path.splitOn slash

/-! ## Components -/

def hasRoot (path : PathBuf) : Bool := path.head? == some slash

/-- A leading `.` is kept. -/
def includeCurDir (path : PathBuf) : Bool := path.pieces.head? == some [dot]

def parseSingleComponent (piece : Name) : Option Component :=
  if piece = [] ∨ piece = [dot] then none
  else if piece = [dot, dot] then some .parentDir
  else some (.normal piece)

/-- `path.components()` -/
def components (path : PathBuf) : Path :=
  (if path.hasRoot then [.rootDir] else if path.includeCurDir then [.curDir] else []) ++
    path.pieces.filterMap parseSingleComponent

/-- `base.join(path)`; an absolute path takes the place of the base. -/
def join (base path : PathBuf) : PathBuf :=
  if path.hasRoot then path
  else if base.getLast?.any (· ≠ slash) then base ++ slash :: path
  else base ++ path

/-! ## Checks -/

/-- What a check rejects, as in `ValidationError`, with the path as it was sent. -/
inductive PathError where
  | parentComponent (path : PathBuf)
  | notRelative (path : PathBuf)
  | namesNoEntry (path : PathBuf)
  | notCanonical (path : PathBuf)
  | invalidActionEntry (path : PathBuf) (cause : PathError)
deriving DecidableEq

def validateComponent (path : PathBuf) : Component → Except PathError Unit
  | .normal _ | .curDir => .ok ()
  | .parentDir => .error (.parentComponent path)
  | .rootDir => .error (.notRelative path)

def validateRelativePathComponents (path : PathBuf) : Except PathError Unit :=
  path.components.forM path.validateComponent

def validateRelativePath (path : PathBuf) : Except PathError Unit := do
  path.validateRelativePathComponents
  if !path.components.any Component.isNormal then .error (.namesNoEntry path) else .ok ()

def safeJoin (base path : PathBuf) : Except PathError PathBuf := do
  path.validateRelativePath
  .ok (base.join path)

def validateCanonicalEntryPath (path : PathBuf) : Except PathError Unit := do
  path.validateRelativePath
  if path.isEmpty || path.pieces.any fun piece => piece.isEmpty || piece == [dot] then
    .error (.notCanonical path)
  else
    .ok ()

def validateEntryPath (path : PathBuf) : Except PathError Unit :=
  path.validateCanonicalEntryPath.mapError (.invalidActionEntry path)

/-! ## Actions -/

/-- A change of which only the paths of its entries are kept. -/
inductive Change where
  | added (path : PathBuf)
  | removed (path : PathBuf)
  | modified (old new : PathBuf)

def Change.paths : Change → List PathBuf
  | .added path | .removed path => [path]
  | .modified old new => [old, new]

/-- The source asserts that a modified entry keeps its path. -/
def Change.path : Change → PathBuf
  | .added path | .removed path => path
  | .modified _ new => new

inductive Action where
  | «local» (change : Change)
  | remote (change : Change)
  | conflict (left right : Change)
  | resolvedLocal (conflict : Change × Change) (change : Change)
  | resolvedRemote (conflict : Change × Change) (change : Change)
  | identical (left right : Change)

/-- The changes of an action, in the order in which they are checked. -/
def Action.changes : Action → List Change
  | .local change | .remote change => [change]
  | .conflict left right | .identical left right => [left, right]
  | .resolvedLocal (left, right) change | .resolvedRemote (left, right) change =>
    [left, right, change]

def Action.path : Action → PathBuf
  | .local change | .remote change | .conflict change _ | .identical change _ => change.path
  | .resolvedLocal _ change | .resolvedRemote _ change => change.path

def validateChangePaths (change : Change) : Except PathError Unit :=
  change.paths.forM validateEntryPath

def validateActions (actions : List Action) : Except PathError Unit :=
  actions.forM fun action => action.changes.forM validateChangePaths

/-- The paths of all entries that the actions name. -/
def entryPaths (actions : List Action) : List PathBuf :=
  actions.flatMap fun action => action.changes.flatMap Change.paths

end PathBuf

end Duet

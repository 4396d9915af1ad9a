import Duet.Lib.Fallible
import Duet.Scan.Scanner
import Duet.Sync.Validate

/-!
# Changes against a snapshot

A side scans its tree, restricted to a scope, and compares what it finds with the snapshot
that it saved. In strong mode a snapshot without digests for the files of the scope has to
be migrated: then every file of the scope is hashed, and else only the changed files are.
-/

namespace Duet

open Lib

/-- An error report, as its text. -/
abbrev Report := String

inductive SnapshotFormat where
  | legacyV1
  | v2
deriving DecidableEq

/-- A decoded snapshot. A side without a state file has an empty one in the V2 format. -/
structure LoadedEntries where
  entries : Entries
  format : SnapshotFormat

/-- Why a snapshot cannot be loaded, or compared with a scan. -/
inductive StateError where
  | invalidEntries (cause : ValidationError)
  | hash (report : Report)

/-- The snapshot in a state file that was decoded, if there is one. -/
def loadEntriesWithFormat : Option LoadedEntries → Except StateError LoadedEntries
  | none => .ok ⟨[], .v2⟩
  | some loaded =>
    match validateEntries "state file" loaded.entries with
    | .ok () => .ok loaded
    | .error cause => .error (.invalidEntries cause)

/-- What a scan of the base and the loaded snapshot give. -/
structure State.ScanContext where
  allOld : Entries
  changes : List Change
  current : Entries
  migrationNeeded : Bool

/-! ## Content hashes -/

/-- What an entry says about the file that is hashed for it. -/
structure HashSource where
  path : Path
  ino : UInt64
  size : UInt64
  mtime : Int64
  mode : UInt32

/-- What reading a file gives: its Adler-32 checksum and its digest, or an error when the
file is not the one that was scanned. -/
abbrev ContentHash := HashSource → Except StateError (UInt32 × ContentDigest)

namespace DirEntryWithMeta

def inheritContentHashes (e old : DirEntryWithMeta) : DirEntryWithMeta :=
  { e with checksum := old.checksum, digest := old.digest }

def hashSource (e : DirEntryWithMeta) : HashSource := ⟨e.path, e.ino, e.size, e.mtime, e.mode⟩

def computeContentHashes (hash : ContentHash) (e : DirEntryWithMeta) :
    Except StateError DirEntryWithMeta :=
  if !e.isFile then .ok e
  else do
    let (checksum, digest) ← hash e.hashSource
    return { e with checksum := checksum, digest := some digest }

end DirEntryWithMeta

/-- Hash the files of a manifest. The workers run at the same time, and the error of the
first entry that has one is reported. -/
def hashManifest (hash : ContentHash) (entries : Entries) : Except StateError Entries :=
  entries.mapM (DirEntryWithMeta.computeContentHashes hash)

/-- Hash the new entry of a change. -/
def Change.computeContentHashes (hash : ContentHash) : Change → Except StateError Change
  | .added new => do return .added (← new.computeContentHashes hash)
  | .modified old new => do return .modified old (← new.computeContentHashes hash)
  | .removed old => .ok (.removed old)

def hashChanges (hash : ContentHash) (changes : List Change) : Except StateError (List Change) :=
  changes.mapM (Change.computeContentHashes hash)

/-! ## The comparison -/

/-- An entry that no change is about keeps the hashes of the snapshot. -/
def inheritUnchanged (changes : List Change) (old : Entries) (entry : DirEntryWithMeta) :
    DirEntryWithMeta :=
  match lookup Change.path entry.path changes with
  | some _ => entry
  | none =>
    match entryAt entry.path old with
    | some old => entry.inheritContentHashes old
    | none => entry

/-- Put the new entry of a change in the place of the scanned one. -/
def retainChange (current : Entries) (change : Change) : Entries :=
  match change.newEntry with
  | some new => current.map fun entry => if entry.path = new.path then new else entry
  | none => current

/-- The files of a snapshot that have to be hashed before it can be saved in the V2 format. -/
def lacksDigests (old : Entries) : Bool := old.any fun old => old.isFile && old.digest.isNone

/-- The entries of a scope. -/
def selectedEntries (scope : ScanScope) (entries : Entries) : Entries :=
  entries.filter fun entry => scope.selected entry.path

/-- `state::old_and_changes`, for what the state file holds and the entries that the scan
of the scope has sent, in path order. -/
def oldAndChanges (hash : ContentHash) (scope : ScanScope) (statefile : Option LoadedEntries)
    (scanned : Entries) (strong : Bool) : Except StateError State.ScanContext := do
  let loaded ← loadEntriesWithFormat statefile
  let current := selectedEntries scope scanned
  let restrictedOld := selectedEntries scope loaded.entries
  let changes := changes restrictedOld current
  let current := current.map (inheritUnchanged changes restrictedOld)
  let migrationNeeded :=
    strong && (loaded.format = .legacyV1 || lacksDigests restrictedOld)
  if migrationNeeded then
    let current ← hashManifest hash current
    return ⟨loaded.entries, changes, current, migrationNeeded⟩
  else
    let changes ← hashChanges hash changes
    return ⟨loaded.entries, changes, changes.foldl retainChange current, migrationNeeded⟩

/-- `state::replace_scope` -/
def replaceScope (entries : Entries) (scope : ScanScope) (current : Entries) : Entries :=
  (entries.filter (fun entry => !scope.selected entry.path) ++ current).mergeSort
    fun a b => a.path ≤ b.path

end Duet

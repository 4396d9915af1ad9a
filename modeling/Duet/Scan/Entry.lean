import Duet.Path

/-!
# Scanned entries

One entry of a manifest: a path below the synchronization base with the metadata
that a scan records for it, and the content hashes that were computed for it.
-/

namespace Duet

/-- A BLAKE2b-256 content digest. -/
structure ContentDigest where
  bytes : Vector UInt8 32
deriving DecidableEq, Repr

structure DirEntryWithMeta where
  path : Path
  size : UInt64
  mtime : Int64
  ino : UInt64
  mode : UInt32
  target : Option Path
  isDir : Bool
  checksum : UInt32
  digest : Option ContentDigest
deriving DecidableEq

namespace DirEntryWithMeta

def isSymlink (e : DirEntryWithMeta) : Bool := e.target.isSome

def isFile (e : DirEntryWithMeta) : Bool := !(e.isDir || e.isSymlink)

def sameScanIdentity (e other : DirEntryWithMeta) : Bool :=
  e.size == other.size && e.mtime == other.mtime && e.ino == other.ino

/-- Scan sameness. The source first asserts that the two paths are equal. -/
def same (e other : DirEntryWithMeta) : Bool :=
  (e.isSymlink || e.mode == other.mode) && e.target == other.target &&
    e.isDir == other.isDir && (e.isDir || e.sameScanIdentity other)

def sameContents (e other : DirEntryWithMeta) : Bool :=
  match e.isFile && other.isFile, e.digest, other.digest with
  | true, some left, some right => e.size == other.size && left == right
  | _, _, _ => e.sameScanIdentity other

def setIno (e : DirEntryWithMeta) (ino : UInt64) : DirEntryWithMeta := { e with ino := ino }

@[simp] theorem sameScanIdentity_self (e : DirEntryWithMeta) : e.sameScanIdentity e = true := by
  simp [sameScanIdentity]

/-- A rescan that finds the recorded entry reports nothing. -/
@[simp] theorem same_self (e : DirEntryWithMeta) : e.same e = true := by
  simp [same]

@[simp] theorem setIno_path (e : DirEntryWithMeta) (ino : UInt64) : (e.setIno ino).path = e.path :=
  rfl

end DirEntryWithMeta

/-- A manifest lists the entries of one side, strictly sorted by path. -/
abbrev Entries := List DirEntryWithMeta

end Duet

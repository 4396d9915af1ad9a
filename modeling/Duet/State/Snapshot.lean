import Duet.Lib.Codec
import Duet.Legacy
import Duet.State.Changes

/-!
# Snapshot files

A state file holds the entries of one side. A V2 file begins with a magic text and a
version; a legacy file is a bare list in the layout from before there were digests. All
values are written in the legacy configuration of bincode: numbers least significant byte
first in their full width, lengths as 64-bit numbers, and one byte for a tag or a truth
value. Paths are written as texts, so that they have to be UTF-8.
-/

namespace Duet.Snapshot

open Lib

/-- A path as the bytes that name it. -/
abbrev PathBuf := List UInt8

/-- An entry with its paths as they are written. -/
structure DirEntryWithMeta where
  path : PathBuf
  size : UInt64
  mtime : Int64
  ino : UInt64
  mode : UInt32
  target : Option PathBuf
  isDir : Bool
  checksum : UInt32
  digest : Option ContentDigest
deriving DecidableEq

structure LegacyEntry where
  path : PathBuf
  size : UInt64
  mtime : Int64
  ino : UInt64
  mode : UInt32
  target : Option PathBuf
  isDir : Bool
  checksum : UInt32
deriving DecidableEq

def LegacyEntry.toEntry (entry : LegacyEntry) : DirEntryWithMeta where
  path := entry.path
  size := entry.size
  mtime := entry.mtime
  ino := entry.ino
  mode := entry.mode
  target := entry.target
  isDir := entry.isDir
  checksum := entry.checksum
  digest := none

def DirEntryWithMeta.toLegacy (entry : DirEntryWithMeta) : LegacyEntry where
  path := entry.path
  size := entry.size
  mtime := entry.mtime
  ino := entry.ino
  mode := entry.mode
  target := entry.target
  isDir := entry.isDir
  checksum := entry.checksum

def DirEntryWithMeta.withoutDigest (entry : DirEntryWithMeta) : DirEntryWithMeta :=
  { entry with digest := none }

/-- `path.components()`: separators and dots name nothing, except a root and a leading dot. -/
def components (path : PathBuf) : Path :=
  let parts := path.splitOn 47
  let start :=
    if path.head? = some 47 then [Component.rootDir]
    else if parts.head? = some [46] then [Component.curDir]
    else []
  start ++ parts.filterMap fun part =>
    if part = [] ∨ part = [46] then none
    else if part = [46, 46] then some .parentDir
    else some (.normal part)

/-- The entry that the program works with. -/
def DirEntryWithMeta.load (entry : DirEntryWithMeta) : Duet.DirEntryWithMeta where
  path := components entry.path
  size := entry.size
  mtime := entry.mtime
  ino := entry.ino
  mode := entry.mode
  target := entry.target.map components
  isDir := entry.isDir
  checksum := entry.checksum
  digest := entry.digest

/-! ## The layouts -/

namespace Bincode

def usize : Codec Nat := .littleEndian 8

def u32 : Codec UInt32 :=
  (Codec.littleEndian 4).imap UInt32.ofNat UInt32.toNat (fun _ => UInt32.ofNat_toNat)
    fun _ valid => UInt32.toNat_ofNat_of_lt' (of_decide_eq_true valid)

def u64 : Codec UInt64 :=
  (Codec.littleEndian 8).imap UInt64.ofNat UInt64.toNat (fun _ => UInt64.ofNat_toNat)
    fun _ valid => UInt64.toNat_ofNat_of_lt' (of_decide_eq_true valid)

def i64 : Codec Int64 := u64.imap UInt64.toInt64 Int64.toUInt64 (fun _ => rfl) fun _ _ => rfl

/-- A path is written as a text. -/
def path : Codec PathBuf :=
  (Codec.vec usize .byte).guarded fun bytes => bytes.toByteArray.validateUTF8

def digest : Codec ContentDigest :=
  (Codec.byte.vector 32).imap ContentDigest.mk ContentDigest.bytes (fun _ => rfl) fun _ _ => rfl

def legacyEntry : Codec LegacyEntry :=
  (path.pair (u64.pair (i64.pair (u64.pair (u32.pair (path.option.pair
    (Codec.bool.pair u32))))))).imap
      (fun fields => ⟨fields.1, fields.2.1, fields.2.2.1, fields.2.2.2.1, fields.2.2.2.2.1,
        fields.2.2.2.2.2.1, fields.2.2.2.2.2.2.1, fields.2.2.2.2.2.2.2⟩)
      (fun e => (e.path, e.size, e.mtime, e.ino, e.mode, e.target, e.isDir, e.checksum))
      (fun _ => rfl) fun _ _ => rfl

/-- The layout of an entry is the legacy one with the digest behind it. -/
def entry : Codec DirEntryWithMeta :=
  (legacyEntry.pair digest.option).imap
    (fun fields => { fields.1.toEntry with digest := fields.2 })
    (fun e => (e.toLegacy, e.digest)) (fun _ => rfl) fun _ _ => rfl

def legacyEntries : Codec (List LegacyEntry) := .vec usize legacyEntry

def entries : Codec (List DirEntryWithMeta) := .vec usize entry

end Bincode

/-! ## Files -/

/-- `b"DUETSNP\0"` -/
def snapshotMagic : List UInt8 := [68, 85, 69, 84, 83, 78, 80, 0]

def snapshotVersionV2 : UInt8 := 2

structure LoadedEntries where
  entries : List DirEntryWithMeta
  format : SnapshotFormat
deriving DecidableEq

def LoadedEntries.load (loaded : LoadedEntries) : Duet.LoadedEntries :=
  ⟨loaded.entries.map DirEntryWithMeta.load, loaded.format⟩

inductive SnapshotError where
  /-- truncated snapshot header -/
  | truncatedHeader
  | unsupportedVersion (version : UInt8)
  /-- trailing bytes in V2 snapshot -/
  | trailingV2
  /-- trailing bytes in legacy snapshot -/
  | trailingLegacy
  /-- what bincode does not accept -/
  | decode
  /-- what serde does not write -/
  | encode
deriving DecidableEq

def decodeFromSlice {α : Type} (c : Codec α) (bytes : List UInt8) :
    Except SnapshotError (α × List UInt8) :=
  match c.decode bytes with
  | some result => .ok result
  | none => .error .decode

def encodeIntoStdWrite {α : Type} (c : Codec α) (a : α) : Except SnapshotError (List UInt8) :=
  if c.valid a then .ok (c.encode a) else .error .encode

def decodeEntries (contents : List UInt8) : Except SnapshotError LoadedEntries :=
  if snapshotMagic.isPrefixOf contents then
    match contents.drop snapshotMagic.length with
    | [] => .error .truncatedHeader
    | version :: payload =>
      if version ≠ snapshotVersionV2 then .error (.unsupportedVersion version)
      else do
        let (entries, rest) ← decodeFromSlice Bincode.entries payload
        if rest ≠ [] then .error .trailingV2
        else .ok ⟨entries, .v2⟩
  else do
    let (legacy, rest) ← decodeFromSlice Bincode.legacyEntries contents
    if rest ≠ [] then .error .trailingLegacy
    else .ok ⟨legacy.map LegacyEntry.toEntry, .legacyV1⟩

/-- The bytes of a snapshot file. -/
def writeEntries (entries : List DirEntryWithMeta) (format : SnapshotFormat) :
    Except SnapshotError (List UInt8) :=
  match format with
  | .legacyV1 => encodeIntoStdWrite Bincode.legacyEntries (entries.map DirEntryWithMeta.toLegacy)
  | .v2 => do
    let payload ← encodeIntoStdWrite Bincode.entries entries
    .ok (snapshotMagic ++ [snapshotVersionV2] ++ payload)

end Duet.Snapshot

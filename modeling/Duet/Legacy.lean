import Duet.Actions

/-!
# The legacy forms

Peers without content digests, and V1 snapshots, use the layouts of entries, changes and
actions from before there were digests. A value that goes through its legacy form and back
has lost its digests and nothing else.
-/

namespace Duet

structure LegacyEntry where
  path : Path
  size : UInt64
  mtime : Int64
  ino : UInt64
  mode : UInt32
  target : Option Path
  isDir : Bool
  checksum : UInt32
deriving DecidableEq

def LegacyEntry.toEntry (entry : LegacyEntry) : DirEntryWithMeta where
  path := entry.path
  size := entry.size
  mtime := entry.mtime
  ino := entry.ino
  mode := entry.mode
  target := entry.target
  isDir := entry.isDir
  checksum := entry.checksum
  digest := none

def DirEntryWithMeta.toLegacy (entry : DirEntryWithMeta) : LegacyEntry where
  path := entry.path
  size := entry.size
  mtime := entry.mtime
  ino := entry.ino
  mode := entry.mode
  target := entry.target
  isDir := entry.isDir
  checksum := entry.checksum

inductive LegacyChange where
  | added (entry : LegacyEntry)
  | removed (entry : LegacyEntry)
  | modified (old new : LegacyEntry)
deriving DecidableEq

def LegacyChange.toChange : LegacyChange → Change
  | .added e => .added e.toEntry
  | .removed e => .removed e.toEntry
  | .modified a b => .modified a.toEntry b.toEntry

def Change.toLegacy : Change → LegacyChange
  | .added e => .added e.toLegacy
  | .removed e => .removed e.toLegacy
  | .modified a b => .modified a.toLegacy b.toLegacy

inductive LegacyAction where
  | local (change : LegacyChange)
  | remote (change : LegacyChange)
  | conflict (left right : LegacyChange)
  | resolvedLocal (conflict : LegacyChange × LegacyChange) (change : LegacyChange)
  | resolvedRemote (conflict : LegacyChange × LegacyChange) (change : LegacyChange)
  | identical (left right : LegacyChange)
deriving DecidableEq

def LegacyAction.toAction : LegacyAction → Action
  | .local c => .local c.toChange
  | .remote c => .remote c.toChange
  | .conflict a b => .conflict a.toChange b.toChange
  | .resolvedLocal (a, b) c => .resolvedLocal (a.toChange, b.toChange) c.toChange
  | .resolvedRemote (a, b) c => .resolvedRemote (a.toChange, b.toChange) c.toChange
  | .identical a b => .identical a.toChange b.toChange

def Action.toLegacy : Action → LegacyAction
  | .local c => .local c.toLegacy
  | .remote c => .remote c.toLegacy
  | .conflict a b => .conflict a.toLegacy b.toLegacy
  | .resolvedLocal (a, b) c => .resolvedLocal (a.toLegacy, b.toLegacy) c.toLegacy
  | .resolvedRemote (a, b) c => .resolvedRemote (a.toLegacy, b.toLegacy) c.toLegacy
  | .identical a b => .identical a.toLegacy b.toLegacy

def fromLegacy (actions : List LegacyAction) : Actions := actions.map LegacyAction.toAction

def toLegacy (actions : Actions) : List LegacyAction := actions.map Action.toLegacy

/-! ## Through the legacy form and back -/

def DirEntryWithMeta.withoutDigest (e : DirEntryWithMeta) : DirEntryWithMeta :=
  { e with digest := none }

theorem LegacyEntry.toEntry_digest (e : LegacyEntry) : e.toEntry.digest = none := rfl

theorem LegacyEntry.toLegacy_toEntry (e : LegacyEntry) : e.toEntry.toLegacy = e := rfl

theorem DirEntryWithMeta.toEntry_toLegacy (e : DirEntryWithMeta) :
    e.toLegacy.toEntry = e.withoutDigest := rfl

/-- Without digests on one side, contents are compared by scan identity. -/
theorem sameContents_of_digest_eq_none {e e' : DirEntryWithMeta}
    (none : e.digest = none ∨ e'.digest = none) : e.sameContents e' = e.sameScanIdentity e' := by
  unfold DirEntryWithMeta.sameContents
  rcases none with missing | missing
  · rw [missing]
    split <;> simp_all
  · rw [missing]
    split <;> simp_all

/-- The entries of a change that came through the legacy form have no digests. -/
theorem digest_of_toChange {c : LegacyChange} {e : DirEntryWithMeta}
    (mem : c.toChange.oldEntry = some e ∨ c.toChange.newEntry = some e) : e.digest = none := by
  cases c with
  | added entry | removed entry =>
    rcases mem with isOld | isNew
    · cases isOld <;> rfl
    · cases isNew <;> rfl
  | modified old new =>
    rcases mem with isOld | isNew
    · cases isOld
      rfl
    · cases isNew
      rfl

end Duet

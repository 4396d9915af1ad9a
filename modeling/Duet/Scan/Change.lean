import Duet.Lib.Sorted
import Duet.Scan.Entry

/-!
# Changes between two manifests

`changes` matches the entries of two sorted manifests by path and reports what was
added, removed or modified. Two changes of one path are compared across the two
sides by `same` and `sameStrong`, which look at what is synchronized (mode, symlink
target, kind, mtime and file contents) and not at scan identity.
-/

namespace Duet

open Lib

inductive Change where
  | added (entry : DirEntryWithMeta)
  | removed (entry : DirEntryWithMeta)
  | modified (old new : DirEntryWithMeta)
deriving DecidableEq

namespace Change

/-- The path of a change. The source asserts that both entries of a modification
have the same path. -/
def path : Change → Path
  | .added entry => entry.path
  | .removed entry => entry.path
  | .modified _ new => new.path

def isDir : Change → Bool
  | .added entry => entry.isDir
  | .removed entry => entry.isDir
  | .modified old new => old.isDir || new.isDir

/-- What the change leaves at its path. -/
def newEntry : Change → Option DirEntryWithMeta
  | .added entry => some entry
  | .removed _ => none
  | .modified _ new => some new

/-- What the change found at its path. -/
def oldEntry : Change → Option DirEntryWithMeta
  | .added _ => none
  | .removed entry => some entry
  | .modified old _ => some old

/-- Both entries of a modification have one path. -/
def PathsAgree : Change → Prop
  | .modified old new => old.path = new.path
  | _ => True

theorem path_of_newEntry {c : Change} {e : DirEntryWithMeta} (h : c.newEntry = some e) :
    e.path = c.path := by
  cases c <;> cases h <;> rfl

end Change

/-! ## Cross-side sameness -/

/-- The part of the two comparisons that does not depend on file contents. The
source asserts that the compared entries have the same path. -/
def sameWithFileContents (x y : Change)
    (sameFile : DirEntryWithMeta → DirEntryWithMeta → Bool) : Bool :=
  match x, y with
  | .removed _, .removed _ => true
  | .added d1, .added d2 | .modified _ d1, .modified _ d2 =>
    (d1.isSymlink && d2.isSymlink || d1.mode == d2.mode) && d1.target == d2.target &&
      d1.isDir == d2.isDir && (d1.isDir || d1.mtime == d2.mtime) &&
      (!d1.isFile || sameFile d1 d2)
  | _, _ => false

/-- Sameness by digest where both sides have one, and else by checksum. -/
def same (x y : Change) : Bool :=
  sameWithFileContents x y fun d1 d2 =>
    match d1.digest, d2.digest with
    | some a, some b => a == b
    | _, _ => d1.checksum == d2.checksum

/-- Sameness by digest only. -/
def sameStrong (x y : Change) : Bool :=
  sameWithFileContents x y fun d1 d2 =>
    match d1.digest, d2.digest with
    | some a, some b => a == b
    | _, _ => false

/-! ## The change iterator -/

/-- What the iterator reports for one matched pair of entries. -/
def changeOf : Option DirEntryWithMeta × Option DirEntryWithMeta → Option Change
  | (some a, none) => some (.removed a)
  | (none, some b) => some (.added b)
  | (some a, some b) => if !a.same b then some (.modified a b) else none
  | (none, none) => none

/-- An entry that is found as it was recorded is no change. -/
@[simp] theorem changeOf_self (x : Option DirEntryWithMeta) : changeOf (x, x) = none := by
  cases x <;> simp [changeOf]

/-- A reported change leaves what the new manifest has. -/
theorem newEntry_of_changeOf {x y : Option DirEntryWithMeta} {c : Change}
    (h : changeOf (x, y) = some c) : c.newEntry = y := by
  cases x with
  | none => cases y <;> cases h; rfl
  | some a =>
    cases y with
    | none => cases h; rfl
    | some b =>
      simp only [changeOf] at h
      split at h <;> cases h
      rfl

/-- A reported change found what the old manifest has. -/
theorem oldEntry_of_changeOf {x y : Option DirEntryWithMeta} {c : Change}
    (h : changeOf (x, y) = some c) : c.oldEntry = x := by
  cases x with
  | none => cases y <;> cases h; rfl
  | some a =>
    cases y with
    | none => cases h; rfl
    | some b =>
      simp only [changeOf] at h
      split at h <;> cases h
      rfl

/-- Where nothing is reported, both manifests have the same entry or none. -/
theorem same_of_changeOf_eq_none {x y : Option DirEntryWithMeta} (h : changeOf (x, y) = none) :
    Option.Rel (fun old new => old.same new = true) x y := by
  cases x with
  | none =>
    cases y with
    | none => exact .none
    | some b => cases h
  | some a =>
    cases y with
    | none => cases h
    | some b =>
      simp only [changeOf] at h
      split at h
      · cases h
      · next same => exact .some (by simpa using same)

/-- The changes from one sorted manifest to another. -/
def changes (old new : Entries) : List Change :=
  (matchSorted DirEntryWithMeta.path old new).filterMap changeOf

/-- A manifest in strictly increasing path order. -/
abbrev SortedEntries (entries : Entries) : Prop := SortedBy DirEntryWithMeta.path entries

/-- The entry of a manifest at a path. -/
abbrev entryAt (path : Path) (entries : Entries) : Option DirEntryWithMeta :=
  lookup DirEntryWithMeta.path path entries

section Changes

variable {old new : Entries} {p : Path}

theorem changeOf_keyed (sortedOld : SortedEntries old) (sortedNew : SortedEntries new) :
    ∀ pair ∈ matchSorted DirEntryWithMeta.path old new, ∀ c, changeOf pair = some c →
      (c.path : WithBot Path) = pairKey DirEntryWithMeta.path pair := by
  rintro ⟨x, y⟩ mem c image
  cases x with
  | none =>
    cases y with
    | none => cases image
    | some b => cases image; rfl
  | some a =>
    cases y with
    | none => cases image; rfl
    | some b =>
      have samePath := key_of_mem_matchSorted sortedOld sortedNew mem
      simp only [changeOf] at image
      split at image
      · cases image
        exact congrArg _ samePath.symm
      · cases image

theorem sortedBy_changes (sortedOld : SortedEntries old) (sortedNew : SortedEntries new) :
    SortedBy Change.path (changes old new) :=
  sortedBy_filterMap_matchSorted sortedOld sortedNew (changeOf_keyed sortedOld sortedNew)

/-- The change at a path is the one between the two entries there. -/
theorem lookup_changes (sortedOld : SortedEntries old) (sortedNew : SortedEntries new) :
    lookup Change.path p (changes old new) = changeOf (entryAt p old, entryAt p new) :=
  lookup_filterMap_matchSorted sortedOld sortedNew (changeOf_keyed sortedOld sortedNew) rfl

/-- Every reported change passes the path assertion of the source. -/
theorem pathsAgree_of_mem_changes (sortedOld : SortedEntries old)
    (sortedNew : SortedEntries new) : ∀ c ∈ changes old new, c.PathsAgree := by
  intro c mem
  obtain ⟨⟨x, y⟩, pairMem, image⟩ := List.mem_filterMap.mp mem
  cases x with
  | none => cases y <;> cases image; trivial
  | some a =>
    cases y with
    | none => cases image; trivial
    | some b =>
      have samePath := key_of_mem_matchSorted sortedOld sortedNew pairMem
      simp only [changeOf] at image
      split at image
      · cases image
        exact samePath
      · cases image

end Changes

end Duet

import Duet.Lib.Fallible
import Duet.Sync.SystemCalls

/-!
# Rules for a disk

When a call that changes a disk succeeds and what it leaves there, and `Shrinks`: the relation
from a disk to one that has lost some names and nothing else.
-/

namespace Duet.Recovery

open Lib Marker

namespace Disk

variable {disk later : Disk} {dir identity : FileIdentity} {name : Name} {bits : UInt32}

@[simp] theorem inode_set (disk : Disk) (identity other : FileIdentity) (inode : Inode) :
    (disk.set identity inode).inode other =
      if other = identity then some inode else disk.inode other := rfl

theorem inode_set_self (disk : Disk) (identity : FileIdentity) (inode : Inode) :
    (disk.set identity inode).inode identity = some inode := if_pos rfl

theorem inode_set_of_ne {inode : Inode} {other : FileIdentity} (differs : other ≠ identity) :
    (disk.set identity inode).inode other = disk.inode other := if_neg differs

/-- What is written last stays. -/
@[simp] theorem set_set (disk : Disk) (identity : FileIdentity) (first last : Inode) :
    (disk.set identity first).set identity last = disk.set identity last := by
  unfold set
  congr 1
  funext other
  split
  · rfl
  · next differs => exact if_neg differs

theorem set_same {inode : Inode} (found : disk.inode identity = some inode) :
    disk.set identity inode = disk := by
  unfold set
  congr 1
  funext other
  split
  · next same => rw [same, found]
  · rfl

theorem entries_eq {entries : Entries} {mode : UInt32}
    (found : disk.inode dir = some (.directory entries mode)) : disk.entries dir = entries := by
  unfold Disk.entries
  rw [found]

theorem child_eq {entries : Entries} {mode : UInt32}
    (found : disk.inode dir = some (.directory entries mode)) :
    disk.child dir name = entries.lookup name := by
  unfold Disk.child
  rw [entries_eq found]

theorem keys_eq_nil : (disk.entries dir).keys = [] ↔ ∀ name, disk.child dir name = none := by
  constructor
  · intro empty name
    refine AList.lookup_eq_none.mpr fun mem => ?_
    have mem := AList.mem_keys.mp mem
    rw [empty] at mem
    exact List.not_mem_nil mem
  · intro empty
    refine List.eq_nil_iff_forall_not_mem.mpr fun name mem => ?_
    have some := AList.lookup_isSome.mpr mem
    change (disk.child dir name).isSome = true at some
    rw [empty name] at some
    cases some

/-- Only a directory has names. -/
theorem directory_of_child {child : FileIdentity} (found : disk.child dir name = some child) :
    ∃ entries mode, disk.inode dir = some (.directory entries mode) ∧
      entries.lookup name = some child := by
  unfold Disk.child Disk.entries at found
  split at found
  · next entries mode inode => exact ⟨entries, mode, inode, found⟩
  · simp at found

/-! ## When calls succeed -/

theorem stat_eq_ok {inode : Inode} :
    disk.stat identity = .ok inode ↔ disk.inode identity = some inode := by
  unfold Disk.stat
  split
  · next found => simp [found]
  · next missing => simp [missing]

theorem directory_eq_ok {entries : Entries} {mode : UInt32} :
    disk.directory dir bits = .ok (entries, mode) ↔
      disk.inode dir = some (.directory entries mode) ∧ permits mode bits = true := by
  unfold Disk.directory
  split
  · next entries' mode' found =>
    split
    · next permitted =>
      simp only [found, Except.ok.injEq, Prod.mk.injEq, Option.some.injEq, Inode.directory.injEq]
      constructor
      · intro same
        obtain ⟨sameEntries, sameMode⟩ := same
        exact ⟨⟨sameEntries, sameMode⟩, sameMode ▸ permitted⟩
      · exact fun same => same.1
    · next denied =>
      simp only [found, Option.some.injEq, Inode.directory.injEq, reduceCtorEq, false_iff, not_and,
        and_imp]
      intro _ sameMode
      exact sameMode ▸ denied
  · next other =>
    simp only [reduceCtorEq, false_iff, not_and]
    exact fun found => absurd found (other _ _)

theorem statAt_eq_none : disk.statAt dir name = .ok none ↔
    ∃ entries mode, disk.inode dir = some (.directory entries mode) ∧ permits mode 0o100 = true ∧
      entries.lookup name = none := by
  unfold Disk.statAt
  rw [bind_eq_ok]
  constructor
  · intro found
    obtain ⟨⟨entries, mode⟩, opened, found⟩ := found
    obtain ⟨inode, permitted⟩ := directory_eq_ok.mp opened
    refine ⟨entries, mode, inode, permitted, ?_⟩
    dsimp only at found
    split at found
    · assumption
    · obtain ⟨_, _, absurd⟩ := map_eq_ok.mp found
      cases absurd
  · intro found
    obtain ⟨entries, mode, inode, permitted, missing⟩ := found
    exact ⟨(entries, mode), directory_eq_ok.mpr ⟨inode, permitted⟩, by simp [missing]⟩

theorem statAt_eq_some {inode : Inode} : disk.statAt dir name = .ok (some (identity, inode)) ↔
    ∃ entries mode, disk.inode dir = some (.directory entries mode) ∧ permits mode 0o100 = true ∧
      entries.lookup name = some identity ∧ disk.inode identity = some inode := by
  unfold Disk.statAt
  rw [bind_eq_ok]
  constructor
  · intro found
    obtain ⟨⟨entries, mode⟩, opened, found⟩ := found
    obtain ⟨here, permitted⟩ := directory_eq_ok.mp opened
    refine ⟨entries, mode, here, permitted, ?_⟩
    dsimp only at found
    split at found
    · cases found
    · next child named =>
      obtain ⟨inode', there, same⟩ := map_eq_ok.mp found
      cases same
      exact ⟨named, stat_eq_ok.mp there⟩
  · intro found
    obtain ⟨entries, mode, here, permitted, named, there⟩ := found
    refine ⟨(entries, mode), directory_eq_ok.mpr ⟨here, permitted⟩, ?_⟩
    simp only [named]
    exact map_eq_ok.mpr ⟨inode, stat_eq_ok.mpr there, rfl⟩

theorem openDirectoryAt_eq_ok : disk.openDirectoryAt dir name = .ok identity ↔
    ∃ inode, disk.statAt dir name = .ok (some (identity, inode)) ∧
      ∃ entries mode, inode = .directory entries mode ∧ permits mode 0o400 = true := by
  unfold Disk.openDirectoryAt
  rw [bind_eq_ok]
  constructor
  · intro found
    obtain ⟨(_ | ⟨child, inode⟩), stat, found⟩ := found
    · cases found
    · obtain ⟨⟨entries, mode⟩, opened, same⟩ := bind_eq_ok.mp found
      cases same
      obtain ⟨here, permitted⟩ := directory_eq_ok.mp opened
      obtain ⟨_, _, _, _, _, there⟩ := statAt_eq_some.mp stat
      rw [here] at there
      cases there
      exact ⟨_, stat, entries, mode, rfl, permitted⟩
  · intro found
    obtain ⟨inode, stat, entries, mode, same, permitted⟩ := found
    obtain ⟨_, _, _, _, _, there⟩ := statAt_eq_some.mp stat
    subst same
    refine ⟨_, stat, bind_eq_ok.mpr ⟨(entries, mode), ?_, rfl⟩⟩
    exact directory_eq_ok.mpr ⟨there, permitted⟩

theorem unlinkAt_eq_ok : disk.unlinkAt dir name = .ok later ↔
    ∃ entries mode child, disk.inode dir = some (.directory entries mode) ∧
      permits mode 0o300 = true ∧ entries.lookup name = some child ∧
      (∀ below mode, disk.inode child ≠ some (.directory below mode)) ∧
      later = disk.set dir (.directory (entries.erase name) mode) := by
  unfold Disk.unlinkAt
  rw [bind_eq_ok]
  constructor
  · intro done
    obtain ⟨⟨entries, mode⟩, opened, done⟩ := done
    obtain ⟨here, permitted⟩ := directory_eq_ok.mp opened
    refine ⟨entries, mode, ?_⟩
    dsimp only at done
    split at done
    · cases done
    · next child named =>
      split at done
      · cases done
      · next noDirectory =>
        cases done
        exact ⟨child, here, permitted, named, noDirectory, rfl⟩
  · intro done
    obtain ⟨entries, mode, child, here, permitted, named, noDirectory, same⟩ := done
    refine ⟨(entries, mode), directory_eq_ok.mpr ⟨here, permitted⟩, ?_⟩
    dsimp only
    rw [named, same]
    dsimp only
    split
    · next below mode' found => exact absurd found (noDirectory below mode')
    · rfl

theorem renameAt_eq_ok {source destination : Name} :
    disk.renameAt dir source destination = .ok later ↔
    ∃ entries mode child, disk.inode dir = some (.directory entries mode) ∧
      permits mode 0o300 = true ∧ entries.lookup source = some child ∧
      (∀ below mode, (entries.lookup destination).bind disk.inode ≠ some (.directory below mode)) ∧
      later = disk.set dir (.directory ((entries.erase source).insert destination child) mode) := by
  unfold Disk.renameAt
  rw [bind_eq_ok]
  constructor
  · intro done
    obtain ⟨⟨entries, mode⟩, opened, done⟩ := done
    obtain ⟨here, permitted⟩ := directory_eq_ok.mp opened
    refine ⟨entries, mode, ?_⟩
    dsimp only at done
    split at done
    · cases done
    · next child named =>
      split at done
      · cases done
      · next noDirectory =>
        cases done
        exact ⟨child, here, permitted, named, noDirectory, rfl⟩
  · intro done
    obtain ⟨entries, mode, child, here, permitted, named, noDirectory, same⟩ := done
    refine ⟨(entries, mode), directory_eq_ok.mpr ⟨here, permitted⟩, ?_⟩
    dsimp only
    rw [named, same]
    dsimp only
    split
    · next below mode' found => exact absurd found (noDirectory below mode')
    · rfl

theorem removeDirAt_eq_none : disk.removeDirAt dir name = .ok none ↔
    ∃ entries mode, disk.inode dir = some (.directory entries mode) ∧ permits mode 0o300 = true ∧
      entries.lookup name = none := by
  unfold Disk.removeDirAt
  rw [bind_eq_ok]
  constructor
  · intro done
    obtain ⟨⟨entries, mode⟩, opened, done⟩ := done
    obtain ⟨here, permitted⟩ := directory_eq_ok.mp opened
    refine ⟨entries, mode, here, permitted, ?_⟩
    dsimp only at done
    split at done
    · assumption
    · split at done
      · split at done <;> cases done
      · cases done
  · intro done
    obtain ⟨entries, mode, here, permitted, missing⟩ := done
    exact ⟨(entries, mode), directory_eq_ok.mpr ⟨here, permitted⟩, by simp [missing]⟩

theorem removeDirAt_eq_some : disk.removeDirAt dir name = .ok (some later) ↔
    ∃ entries mode child below mode', disk.inode dir = some (.directory entries mode) ∧
      permits mode 0o300 = true ∧ entries.lookup name = some child ∧
      disk.inode child = some (.directory below mode') ∧ below.keys = [] ∧
      later = disk.set dir (.directory (entries.erase name) mode) := by
  unfold Disk.removeDirAt
  rw [bind_eq_ok]
  constructor
  · intro done
    obtain ⟨⟨entries, mode⟩, opened, done⟩ := done
    obtain ⟨here, permitted⟩ := directory_eq_ok.mp opened
    refine ⟨entries, mode, ?_⟩
    dsimp only at done
    split at done
    · cases done
    · next child named =>
      split at done
      · next below mode' there =>
        split at done
        · next empty =>
          cases done
          exact ⟨child, below, mode', here, permitted, named, there, empty, rfl⟩
        · cases done
      · cases done
  · intro done
    obtain ⟨entries, mode, child, below, mode', here, permitted, named, there, empty, same⟩ := done
    refine ⟨(entries, mode), directory_eq_ok.mpr ⟨here, permitted⟩, ?_⟩
    simp only [named, there, empty, if_true, same]

theorem setMode_eq_ok {mode : UInt32} : disk.setMode dir mode = .ok later ↔
    ∃ entries mode', disk.inode dir = some (.directory entries mode') ∧
      later = disk.set dir (.directory entries mode) := by
  unfold Disk.setMode
  rw [bind_eq_ok]
  constructor
  · intro done
    obtain ⟨⟨entries, mode'⟩, opened, same⟩ := done
    cases same
    exact ⟨entries, mode', (directory_eq_ok.mp opened).1, rfl⟩
  · intro done
    obtain ⟨entries, mode', here, same⟩ := done
    refine ⟨(entries, mode'), directory_eq_ok.mpr ⟨here, ?_⟩, by rw [same]⟩
    simp [permits]

theorem setMode_of_directory {entries : Entries} {mode : UInt32} (mode' : UInt32)
    (found : disk.inode dir = some (.directory entries mode)) :
    disk.setMode dir mode' = .ok (disk.set dir (.directory entries mode')) :=
  setMode_eq_ok.mpr ⟨entries, mode, found, rfl⟩

end Disk

/-! ## Modes -/

/-- A mode, or the one that a directory has for the moment in which it is opened to be
synced. -/
def Widened (mode later : UInt32) : Prop := later = mode ∨ later = mode ||| 0o500

theorem Widened.trans {mode later last : UInt32} (first : Widened mode later)
    (second : Widened later last) : Widened mode last := by
  rcases first with rfl | rfl
  · exact second
  · rcases second with rfl | rfl
    · exact .inr rfl
    · right
      rw [UInt32.or_assoc, UInt32.or_self]

theorem permits_or {mode bits : UInt32} (extra : UInt32) (permitted : permits mode bits = true) :
    permits (mode ||| extra) bits = true := by
  unfold permits at permitted ⊢
  rw [decide_eq_true_iff, ← UInt32.toBitVec_inj, UInt32.toBitVec_and] at permitted ⊢
  rw [UInt32.toBitVec_or]
  ext i inside
  have bit := congrArg (fun bits : BitVec 32 => bits[i]) permitted
  simp only [BitVec.getElem_and, BitVec.getElem_or] at bit ⊢
  cases extra.toBitVec[i] with
  | false => rw [Bool.or_false, bit]
  | true => rw [Bool.or_true, Bool.true_and]

theorem permits_trans {mode bits fewer : UInt32} (permitted : permits mode bits = true)
    (less : permits bits fewer = true) : permits mode fewer = true := by
  unfold permits at *
  rw [decide_eq_true_iff] at *
  rw [← less, ← UInt32.and_assoc, permitted]

theorem Widened.permits {mode later bits : UInt32} (widened : Widened mode later)
    (permitted : permits mode bits = true) : permits later bits = true := by
  rcases widened with rfl | rfl
  · exact permitted
  · exact permits_or _ permitted

/-! ## Disks that lose names -/

/-- A later disk has the files of an earlier one as they were, and of the names in its
directories only some that may be `gone` are missing. -/
structure Shrinks (gone : FileIdentity → Name → Prop) (disk later : Disk) : Prop where
  files : ∀ identity, (∀ entries mode, disk.inode identity ≠ some (.directory entries mode)) →
    later.inode identity = disk.inode identity
  directories : ∀ dir entries mode, disk.inode dir = some (.directory entries mode) →
    ∃ entries' mode', later.inode dir = some (.directory entries' mode') ∧ Widened mode mode' ∧
      ∀ name, entries'.lookup name = entries.lookup name ∨
        entries'.lookup name = none ∧ gone dir name

namespace Shrinks

variable {gone gone' : FileIdentity → Name → Prop} {disk later last : Disk}

theorem refl (disk : Disk) : Shrinks gone disk disk where
  files _ _ := rfl
  directories _ entries mode found := ⟨entries, mode, found, .inl rfl, fun _ => .inl rfl⟩

theorem trans (first : Shrinks gone disk later) (second : Shrinks gone later last) :
    Shrinks gone disk last where
  files identity noDirectory := by
    have same := first.files identity noDirectory
    rw [second.files identity (same ▸ noDirectory), same]
  directories dir entries mode found := by
    obtain ⟨entries₁, mode₁, found₁, widened₁, names₁⟩ := first.directories dir entries mode found
    obtain ⟨entries₂, mode₂, found₂, widened₂, names₂⟩ :=
      second.directories dir entries₁ mode₁ found₁
    refine ⟨entries₂, mode₂, found₂, widened₁.trans widened₂, fun name => ?_⟩
    rcases names₂ name with same | lost
    · rw [same]
      exact names₁ name
    · exact .inr lost

theorem mono (shrinks : Shrinks gone disk later) (more : ∀ dir name, gone dir name → gone' dir name) :
    Shrinks gone' disk later where
  files := shrinks.files
  directories dir entries mode found := by
    obtain ⟨entries', mode', found', widened, names⟩ := shrinks.directories dir entries mode found
    exact ⟨entries', mode', found', widened, fun name =>
      (names name).imp_right fun lost => ⟨lost.1, more dir name lost.2⟩⟩

/-- What a later disk has for an inode is a directory when it was one. -/
theorem file_of_file (shrinks : Shrinks gone disk later) {identity : FileIdentity}
    {file : MarkerFile} {owner : UInt32} (found : disk.inode identity = some (.regular file owner)) :
    later.inode identity = some (.regular file owner) := by
  rw [shrinks.files identity (by simp [found]), found]

theorem child (shrinks : Shrinks gone disk later) (dir : FileIdentity) (name : Name) :
    later.child dir name = disk.child dir name ∨ later.child dir name = none ∧ gone dir name := by
  by_cases isDirectory : ∃ entries mode, disk.inode dir = some (.directory entries mode)
  · obtain ⟨entries, mode, found⟩ := isDirectory
    obtain ⟨entries', mode', found', -, names⟩ := shrinks.directories dir entries mode found
    rw [Disk.child_eq found, Disk.child_eq found']
    exact names name
  · left
    have same := shrinks.files dir fun entries mode found => isDirectory ⟨entries, mode, found⟩
    unfold Disk.child Disk.entries
    rw [same]

theorem keys_eq_nil (shrinks : Shrinks gone disk later) {dir : FileIdentity}
    (empty : (disk.entries dir).keys = []) : (later.entries dir).keys = [] := by
  refine Disk.keys_eq_nil.mpr fun name => ?_
  rcases shrinks.child dir name with same | lost
  · rw [same, Disk.keys_eq_nil.mp empty]
  · exact lost.1

/-- A directory with another mode, or with fewer names. -/
theorem set_directory {dir : FileIdentity} {entries entries' : Entries} {mode mode' : UInt32}
    (found : disk.inode dir = some (.directory entries mode)) (widened : Widened mode mode')
    (names : ∀ name, entries'.lookup name = entries.lookup name ∨
      entries'.lookup name = none ∧ gone dir name) :
    Shrinks gone disk (disk.set dir (.directory entries' mode')) where
  files identity noDirectory := by
    refine Disk.inode_set_of_ne fun same => ?_
    rw [same] at noDirectory
    exact noDirectory entries mode found
  directories dir₁ entries₁ mode₁ found₁ := by
    by_cases here : dir₁ = dir
    · subst here
      rw [found] at found₁
      cases found₁
      exact ⟨entries', mode', by simp, widened, names⟩
    · exact ⟨entries₁, mode₁, (Disk.inode_set_of_ne here).trans found₁, .inl rfl, fun _ => .inl rfl⟩

/-- A name that is removed. -/
theorem erase {dir : FileIdentity} {entries : Entries} {mode : UInt32} {name : Name}
    (found : disk.inode dir = some (.directory entries mode)) (may : gone dir name) :
    Shrinks gone disk (disk.set dir (.directory (entries.erase name) mode)) := by
  refine set_directory found (.inl rfl) fun other => ?_
  by_cases same : other = name
  · subst same
    exact .inr ⟨AList.lookup_erase _ _, may⟩
  · exact .inl (AList.lookup_erase_ne same)

end Shrinks

end Duet.Recovery

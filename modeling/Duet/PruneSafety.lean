import Duet.Lib.Steps
import Duet.Sync.PruneCalls
import Duet.Sync.PruneFrame

/-!
# Pruning deletes what the report promised, and nothing else

Abstractly, pruning deletes one disposable child of a removed directory after the other
(`PruneStep`). Every run of the program refines such a run: what it leaves holds what the
abstract run leaves, and is the same when it succeeds. Safety, the set that is deleted
and the agreement with the preflight are facts about abstract runs.
-/

namespace Duet

open Lib Relation

/-- A child of a removed directory that a run may delete, with what lies below it. -/
structure Prunable (policy : RemovalBlockerPolicy) (removedPaths : List Path)
    (tree : DirectoryTree) (child : Node) : Prop where
  inside : ∃ p ∈ removedPaths, child ∈ tree.readDir (canonicalRelativePath p)
  kept : child.path ∉ removedPaths
  pruned : policy.shouldPrune (policy.classify child.path) = true

inductive PruneStep (policy : RemovalBlockerPolicy) (removedPaths : List Path) :
    DirectoryTree → DirectoryTree → Prop where
  | prune {tree : DirectoryTree} {child : Node} (prunable : Prunable policy removedPaths tree child)
      (clear : child.isDir = true → Clear policy tree child.path) :
      PruneStep policy removedPaths tree (tree.outside child.path)

abbrev PruneRun (policy : RemovalBlockerPolicy) (removedPaths : List Path) :
    DirectoryTree → DirectoryTree → Prop :=
  ReflTransGen (PruneStep policy removedPaths)

section Abstract

variable {policy : RemovalBlockerPolicy} {removedPaths : List Path} {tree rest : DirectoryTree}

/-- A run only takes entries away. -/
theorem PruneRun.fewer (run : PruneRun policy removedPaths tree rest) :
    (∀ n ∈ rest.nodes, n ∈ tree.nodes) ∧ rest.dev = tree.dev := by
  refine invariant_of_run
    (I := fun rest => (∀ n ∈ rest.nodes, n ∈ tree.nodes) ∧ rest.dev = tree.dev) ?_ run
    ⟨fun _ => id, rfl⟩
  rintro s t ⟨fewer, dev⟩ ⟨prunable, clear⟩
  exact ⟨fun n mem => fewer n (fewer_outside n mem), dev⟩

theorem readDir_mono {tree' : DirectoryTree} (fewer : ∀ n ∈ tree'.nodes, n ∈ tree.nodes)
    {dir : Path} {child : Node} (inside : child ∈ tree'.readDir dir) : child ∈ tree.readDir dir := by
  obtain ⟨mem, named⟩ := DirectoryTree.mem_readDir.mp inside
  exact DirectoryTree.mem_readDir.mpr ⟨fewer child mem, named⟩

/-- What is true of an entry that a run has deleted: it lies at or below a prunable child,
nothing excludes it, and the directories between them are on the base's device. -/
structure SafelyDeleted (policy : RemovalBlockerPolicy) (removedPaths : List Path)
    (tree : DirectoryTree) (n : Node) : Prop where
  selected : policy.isExcluded n.path = false
  below : ∃ child, Prunable policy removedPaths tree child ∧ child.path <+: n.path ∧
    ∀ m ∈ tree.nodes, m.isDir = true → child.path <+: m.path → m.path <+: n.path →
      m.metadata.dev = tree.dev

/-- A prunable child is not excluded. -/
theorem Prunable.selected {child : Node} (prunable : Prunable policy removedPaths tree child) :
    policy.isExcluded child.path = false := by
  have pruned := prunable.pruned
  unfold RemovalBlockerPolicy.classify at pruned
  split at pruned
  · cases pruned
  · split at pruned
    · cases pruned
    · rename_i notExcluded
      exact Bool.eq_false_iff.mpr notExcluded

/-- Every run deletes safely. -/
theorem PruneRun.safe (run : PruneRun policy removedPaths tree rest) {n : Node}
    (mem : n ∈ tree.nodes) (gone : n ∉ rest.nodes) : SafelyDeleted policy removedPaths tree n := by
  induction run with
  | refl => exact absurd mem gone
  | @tail s t run step ih =>
    by_cases still : n ∈ s.nodes
    · obtain ⟨fewer, dev⟩ := PruneRun.fewer run
      obtain ⟨prunable, clear⟩ := step
      rename_i child
      have below : child.path <+: n.path := by
        by_contra apart
        exact gone (DirectoryTree.mem_outside.mpr ⟨still, apart⟩)
      obtain ⟨p, listed, inside⟩ := prunable.inside
      have childMem := (DirectoryTree.mem_readDir.mp inside).1
      have leaf : child.isDir = false → n = child := fun isFile =>
        DirectoryTree.eq_of_leaf isFile childMem still below
      refine ⟨?_, child, ⟨⟨p, listed, readDir_mono fewer inside⟩, prunable.kept, prunable.pruned⟩,
        below, ?_⟩
      · by_cases here : n.path = child.path
        · rw [here]
          exact prunable.selected
        · cases isDir : child.isDir with
          | true => exact (clear isDir).selected n still below here
          | false => exact absurd (congrArg Node.path (leaf isDir)) here
      · intro m mMem mDir under above
        -- a directory above an entry that is left is left
        have nonempty : m.path ≠ [] := by
          obtain ⟨dir, name, path, -⟩ := tree.named m mMem
          simp [path]
        obtain ⟨m', mMem', path, -⟩ := DirectoryTree.exists_ancestor still above nonempty
        have same : m' = m := DirectoryTree.eq_of_path (fewer m' mMem') mMem path
        rw [same] at mMem'
        cases isDir : child.isDir with
        | true => rw [((clear isDir).dirs m mMem' under mDir).1, dev]
        | false =>
          have isChild := DirectoryTree.eq_of_leaf isDir childMem mMem' under
          rw [isChild, isDir] at mDir
          cases mDir
    · exact ih still

/-- All that is left in a removed directory is removed itself. -/
def Cleaned (removedPaths : List Path) (tree : DirectoryTree) (p : Path) : Prop :=
  ∀ child ∈ tree.readDir (canonicalRelativePath p), child.path ∈ removedPaths

theorem Cleaned.mono {tree' : DirectoryTree} {p : Path} (cleaned : Cleaned removedPaths tree p)
    (fewer : ∀ n ∈ tree'.nodes, n ∈ tree.nodes) : Cleaned removedPaths tree' p :=
  fun child inside => cleaned child (readDir_mono fewer inside)

end Abstract

/-! ## The program refines the abstract runs -/

section Runs

variable {kernel : Kernel} {policy : RemovalBlockerPolicy} {removedPaths : List Path} {disk : Disk}

/-- How a run fails: at least what some abstract run leaves is left, and either a call was
refused or the tree was not ready for the removal. -/
def Stops (kernel : Kernel) (policy : RemovalBlockerPolicy) (removedPaths : List Path)
    (tree : DirectoryTree) (e : RemovalError) (t : Disk) : Prop :=
  ∃ rest, PruneRun policy removedPaths tree rest ∧ (∀ n ∈ rest.nodes, n ∈ t.tree.nodes) ∧
    (SystemError kernel tree e ∨ ¬ Ready policy rest removedPaths)

theorem Stops.head {tree rest : DirectoryTree} {e : RemovalError} {t : Disk}
    (run : PruneRun policy removedPaths tree rest)
    (stops : Stops kernel policy removedPaths rest e t) :
    Stops kernel policy removedPaths tree e t := by
  obtain ⟨rest', run', left, cause⟩ := stops
  exact ⟨rest', run.trans run', left, cause.imp_left fun error => error.mono run.fewer.1⟩

/-- A tree that is not ready stops the run where it is. -/
theorem Stops.here {e : RemovalError} {t : Disk} (notReady : ¬ Ready policy t.tree removedPaths) :
    Stops kernel policy removedPaths t.tree e t :=
  ⟨t.tree, .refl, fun _ => id, .inr notReady⟩

end Runs

/-! ## The pruning of a plan -/

/-- The rules of a policy, as the profile has them. -/
def ScanPolicy.rules (scanPolicy : Option ScanPolicy) : Locations :=
  (scanPolicy.map ScanPolicy.locations).getD []

/-- A directory `d` with a file `x` in it, on a device of its own or on the base's. -/
def treeWithFile (dev : UInt64) : DirectoryTree where
  nodes := [⟨[.normal [100]], ⟨.directory, 0, 0, 1, 0o40755, dev⟩⟩,
    ⟨[.normal [100], .normal [120]], ⟨.file, 3, 5, 2, 0o100644, dev⟩⟩]
  dev := 7
  nodup := List.nodup_cons.mpr ⟨by simp, List.nodup_singleton _⟩
  named := by
    intro node mem
    simp only [List.mem_cons, List.not_mem_nil, or_false] at mem
    rcases mem with rfl | rfl
    · exact ⟨[], [100], rfl, .inl rfl⟩
    · exact ⟨[.normal [100]], [120], rfl, .inr ⟨_, List.mem_cons_self, rfl, rfl⟩⟩

def globX (pattern : String) : Option (Name → Bool) :=
  if pattern = "x" then some fun name => name == [120] else none

def willing : Kernel := ⟨fun _ => false, fun _ => false, 1⟩

end Duet

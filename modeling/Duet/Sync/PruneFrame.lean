import Duet.Sync.PruneCalls

/-!
# What pruning leaves alone

Pruning a directory changes only what lies strictly below it, also when it fails on the way:
entries go, or have a temporary name of the process in their path for a while. `Only` says
this of a program from one disk, and is put together along the program.
-/

namespace Duet

open Lib

/-- A temporary name of the process is in the path. -/
def Kernel.Temporary (kernel : Kernel) (path : Path) : Prop :=
  ∃ counter filename, .normal (kernel.pruneTempName counter filename) ∈ path

/-- A temporary name begins with a dot. -/
theorem Kernel.head?_pruneTempName {kernel : Kernel} {counter : Nat} {filename : Name} :
    (kernel.pruneTempName counter filename).head? = some 46 := by
  have first : ∃ rest, (s!".duet-prune-{kernel.processId}-{counter}-").toList = '.' :: rest := by
    simp only [String.toList_append]
    exact ⟨_, rfl⟩
  obtain ⟨rest, first⟩ := first
  unfold pruneTempName
  rw [first]
  rfl

/-- The path lies strictly below a directory. -/
def Path.Inside (dir path : Path) : Prop := dir <+: path ∧ path ≠ dir

/-- Between two trees only what lies strictly below a directory has changed, and nothing is
new but under a temporary name. -/
structure PrunedWithin (kernel : Kernel) (dir : Path) (tree tree' : DirectoryTree) : Prop where
  outside : ∀ n : Node, ¬ dir.Inside n.path → (n ∈ tree'.nodes ↔ n ∈ tree.nodes)
  inside : ∀ n ∈ tree'.nodes, n ∈ tree.nodes ∨ kernel.Temporary n.path
  dev : tree'.dev = tree.dev

def Only (kernel : Kernel) (dir : Path) {α : Type} (m : Pruning α) (disk : Disk) : Prop :=
  m.Ends (fun _ t => PrunedWithin kernel dir disk.tree t.tree)
    (fun _ t => PrunedWithin kernel dir disk.tree t.tree) disk

section Only

variable {kernel : Kernel} {dir path : Path} {disk : Disk} {tree tree' tree'' : DirectoryTree}
  {α β : Type}

theorem Path.Inside.trans {p : Path} (first : dir.Inside path) (below : path <+: p) :
    dir.Inside p := by
  refine ⟨first.1.trans below, ?_⟩
  rintro rfl
  exact first.2 (below.eq_of_length (le_antisymm below.length_le first.1.length_le))

theorem Path.inside_concat {p : Path} (below : dir <+: p) (component : Component) :
    dir.Inside (p ++ [component]) := by
  refine ⟨below.trans (List.prefix_append _ _), ?_⟩
  rintro rfl
  have shorter := below.length_le
  rw [List.length_append, List.length_singleton] at shorter
  omega

theorem PrunedWithin.refl (tree : DirectoryTree) : PrunedWithin kernel dir tree tree :=
  ⟨fun _ _ => Iff.rfl, fun _ => .inl, rfl⟩

theorem PrunedWithin.trans (first : PrunedWithin kernel dir tree tree')
    (second : PrunedWithin kernel dir tree' tree'') : PrunedWithin kernel dir tree tree'' where
  outside n apart := (second.outside n apart).trans (first.outside n apart)
  inside n mem := (second.inside n mem).elim (first.inside n) .inr
  dev := second.dev.trans first.dev

/-- What is not below the directory is as it was. -/
theorem PrunedWithin.entry (within : PrunedWithin kernel dir tree tree')
    (apart : ¬ dir.Inside path) : tree'.entry? path = tree.entry? path := by
  refine Option.ext fun n => ?_
  rw [DirectoryTree.entry?_eq_some, DirectoryTree.entry?_eq_some]
  constructor
  · rintro ⟨mem, rfl⟩
    exact ⟨(within.outside n apart).mp mem, rfl⟩
  · rintro ⟨mem, rfl⟩
    exact ⟨(within.outside n apart).mpr mem, rfl⟩

/-- What was not there comes under temporary names only. -/
theorem PrunedWithin.absent (within : PrunedWithin kernel dir tree tree')
    (lasting : ¬ kernel.Temporary path) (free : tree.entry? path = none) :
    tree'.entry? path = none := by
  cases found : tree'.entry? path with
  | none => rfl
  | some n =>
    obtain ⟨mem, rfl⟩ := DirectoryTree.entry?_eq_some.mp found
    rcases within.inside n mem with old | temp
    · rw [DirectoryTree.entry?_eq_some.mpr ⟨old, rfl⟩] at free
      cases free
    · exact absurd temp lasting

/-- An entry below the directory goes, with what lies below it. -/
theorem PrunedWithin.of_outside (inside : dir.Inside path) :
    PrunedWithin kernel dir tree (tree.outside path) where
  outside n apart := by
    rw [DirectoryTree.mem_outside]
    exact and_iff_left fun below => apart (inside.trans below)
  inside n mem := .inl (fewer_outside n mem)
  dev := rfl

/-- An entry below the directory gets a temporary name. -/
theorem PrunedWithin.of_rename {d : Path} {old new : Name} (below : dir <+: d)
    (temp : ∃ counter filename, new = kernel.pruneTempName counter filename)
    (can : tree.CanRename d old new) :
    PrunedWithin kernel dir tree (tree.rename d old new can) where
  outside n apart := by
    have elsewhere : ∀ name, ¬ d ++ [.normal name] <+: n.path := fun name under =>
      apart ((Path.inside_concat below (.normal name)).trans under)
    change n ∈ tree.nodes.map _ ↔ _
    rw [List.mem_map]
    constructor
    · rintro ⟨m, mem, rfl⟩
      by_cases under : d ++ [.normal old] <+: m.path
      · exact absurd (DirectoryTree.relocate_dir_below new under) (elsewhere new)
      · rwa [DirectoryTree.relocate_apart under]
    · exact fun mem => ⟨n, mem, DirectoryTree.relocate_apart (elsewhere old)⟩
  inside n mem := by
    obtain ⟨m, mMem, rfl⟩ := List.mem_map.mp mem
    by_cases under : d ++ [.normal old] <+: m.path
    · obtain ⟨counter, filename, rfl⟩ := temp
      refine .inr ⟨counter, filename, ?_⟩
      have named := DirectoryTree.relocate_dir_below (kernel.pruneTempName counter filename) under
      exact named.subset (List.mem_append_right _ List.mem_cons_self)
    · rw [DirectoryTree.relocate_apart under]
      exact .inl mMem
  dev := rfl

theorem Only.of_same {m : Pruning α}
    (same : m.Ends (fun _ (t : Disk) => t.tree = disk.tree)
      (fun _ (t : Disk) => t.tree = disk.tree) disk) :
    Only kernel dir m disk :=
  same.mono (fun _ _ tree => tree ▸ .refl _) fun _ _ tree => tree ▸ .refl _

theorem Only.bind {m : Pruning α} {f : α → Pruning β} (first : Only kernel dir m disk)
    (rest : ∀ a t, Only kernel dir (f a) t) : Only kernel dir (m >>= f) disk := by
  unfold Only
  rw [Effect.ends_bind]
  refine first.mono (fun a t within => ?_) fun _ _ => id
  exact (rest a t).mono (fun _ _ => within.trans) fun _ _ => within.trans

theorem Only.forM {f : Node → Pruning PUnit} {l : List Node}
    (step : ∀ n ∈ l, ∀ t, Only kernel dir (f n) t) : Only kernel dir (l.forM f) disk := by
  refine Effect.ends_forM (I := fun _ (t : Disk) => PrunedWithin kernel dir disk.tree t.tree)
    (.refl _) ?_
  intro n rest t suffix within
  refine (step n (suffix.subset List.mem_cons_self) t).mono (fun _ _ => within.trans) ?_
  exact fun _ _ => within.trans

theorem only_call {syscall : SysCall} : Only kernel dir (call kernel syscall) disk :=
  .of_same (ends_call rfl fun _ => rfl)

theorem only_removeFile (inside : dir.Inside path) :
    Only kernel dir (removeFile kernel path) disk := by
  refine Only.bind only_call fun _ t => ?_
  unfold Only
  rw [Effect.ends_bind, Effect.ends_read]
  cases t.tree.entry? path with
  | none => exact .refl _
  | some node =>
    dsimp only
    split
    · exact .refl _
    · exact .of_outside inside

theorem only_removeDir (inside : dir.Inside path) :
    Only kernel dir (removeDir kernel path) disk := by
  refine Only.bind only_call fun _ t => ?_
  unfold Only
  rw [Effect.ends_bind, Effect.ends_read]
  cases t.tree.entry? path with
  | none => exact .refl _
  | some node =>
    dsimp only
    split
    · exact .of_outside inside
    · exact .refl _

theorem only_renameAside {d : Path} {old new : Name} (below : dir <+: d)
    (temp : ∃ counter filename, new = kernel.pruneTempName counter filename) :
    Only kernel dir (renameAside kernel d old new) disk := by
  refine Only.bind only_call fun _ t => ?_
  change Effect.Ends (if can : t.tree.CanRename d old new then _ else _) _ _ t
  split
  · rename_i can
    exact .of_rename below temp can
  · exact .refl _

theorem only_removeQuarantinedIgnoredPath {baseDev : UInt64} {levels : Nat}
    (inside : dir.Inside path) :
    Only kernel dir (removeQuarantinedIgnoredPath kernel baseDev levels path) disk := by
  induction levels generalizing disk path with
  | zero => exact .refl _
  | succ levels ih =>
    unfold removeQuarantinedIgnoredPath Only
    rw [Effect.ends_bind, Effect.ends_read]
    cases disk.tree.entry? path with
    | none => exact .refl _
    | some node =>
      dsimp only
      split
      · exact only_removeFile inside
      · split
        · exact .refl _
        · refine Only.bind (.forM fun child mem t => ?_) fun _ t => only_removeDir inside
          obtain ⟨-, name, childPath⟩ := DirectoryTree.mem_readDir.mp mem
          have below : dir.Inside child.path :=
            inside.trans (childPath ▸ List.prefix_append _ _)
          split
          · exact ih below
          · exact only_removeFile below

theorem only_removeIgnoredDirAllSameDevice {policy : RemovalBlockerPolicy}
    (inside : dir.Inside path) :
    Only kernel dir (removeIgnoredDirAllSameDevice kernel policy path) disk := by
  unfold removeIgnoredDirAllSameDevice
  refine Only.bind (.of_same ?_) fun _ t => ?_
  · rw [ends_inspect]
    cases preflightPrunableIgnoredDir policy disk.tree disk.tree.levels path with
    | error e => exact rfl
    | ok => exact rfl
  · split
    · rename_i filename last
      -- the parent of an entry strictly below the directory is at or below it
      have above : dir <+: path.dropLast := by
        obtain ⟨⟨rest, rfl⟩, strict⟩ := inside
        have nonempty : rest ≠ [] := by
          rintro rfl
          exact strict (List.append_nil dir)
        rw [List.dropLast_append_of_ne_nil nonempty]
        exact List.prefix_append _ _
      unfold Only
      rw [Effect.ends_bind]
      refine (ends_ignoredPruneTempPath (by decide)).mono ?_ ?_
      · rintro temp u ⟨same, -, counter, named⟩
        have rest : Only kernel dir (do
            call kernel (.recordStaged (path.dropLast ++ [.normal temp]))
            renameAside kernel path.dropLast filename temp
            let disk ← Effect.read
            removeQuarantinedIgnoredPath kernel disk.tree.dev disk.tree.levels
              (path.dropLast ++ [.normal temp])) u := by
          refine Only.bind only_call fun _ u => ?_
          refine Only.bind (only_renameAside above ⟨counter, filename, named⟩) fun _ u => ?_
          exact only_removeQuarantinedIgnoredPath (Path.inside_concat above _)
        rw [← same]
        exact rest
      · rintro e u ⟨-, same⟩
        rw [same]
        exact .refl _
    · exact .refl _

theorem only_pruneChild {policy : RemovalBlockerPolicy} {child : Node}
    (inside : dir.Inside child.path) : Only kernel dir (pruneChild kernel policy child) disk := by
  unfold pruneChild
  split
  · exact Only.bind (only_removeIgnoredDirAllSameDevice inside) fun _ _ => only_call
  · exact Only.bind (only_removeFile inside) fun _ _ => only_call

/-- Pruning a directory changes only what lies below it. -/
theorem only_pruneIgnoredRemovalBlockers {policy : RemovalBlockerPolicy}
    {removedPaths : List Path} {levels : Nat} (below : dir <+: path) :
    Only kernel dir (pruneIgnoredRemovalBlockers kernel policy removedPaths levels path) disk := by
  induction levels generalizing disk path with
  | zero => exact .refl _
  | succ levels ih =>
    unfold pruneIgnoredRemovalBlockers
    unfold Only
    rw [Effect.ends_bind, ends_inspect]
    unfold DirectoryTree.openDir
    split
    · split
      · rw [Effect.ends_check_ok]
        refine Only.forM fun child mem t => ?_
        obtain ⟨-, name, childPath⟩ := DirectoryTree.mem_readDir.mp mem
        have inside : dir.Inside child.path := childPath ▸ Path.inside_concat below _
        split
        · split
          · exact ih inside.1
          · exact .refl _
        · split
          · exact only_pruneChild inside
          · exact .refl _
      · exact .refl _
    · exact .refl _

end Only

end Duet

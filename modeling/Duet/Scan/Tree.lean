import Duet.Scan.Scanner
import Duet.Sync.Validate
import Mathlib.Algebra.Group.Nat.Defs

/-!
# Directory trees

What lies above and below the entries of a tree, and the trees that are left when a
subtree is removed (`outside`) or when an entry gets another name in its directory
(`rename`). Both keep the entries in directories that the tree has.
-/

namespace Duet

namespace DirectoryTree

variable {tree : DirectoryTree} {dir p : Path}

theorem eq_of_path {n m : Node} (hn : n ∈ tree.nodes) (hm : m ∈ tree.nodes)
    (same : n.path = m.path) : n = m :=
  List.inj_on_of_nodup_map tree.nodup hn hm same

theorem nodup_nodes (tree : DirectoryTree) : tree.nodes.Nodup :=
  tree.nodup.of_map Node.path

theorem mem_readDir {child : Node} :
    child ∈ tree.readDir dir ↔
      child ∈ tree.nodes ∧ ∃ name, child.path = dir ++ [.normal name] := by
  rw [readDir, List.mem_filter]
  refine and_congr_right fun mem => ?_
  obtain ⟨parent, name, path, -⟩ := tree.named child mem
  rw [path, decide_eq_true_eq, List.dropLast_concat]
  constructor
  · intro same
    exact ⟨name, by rw [same]⟩
  · rintro ⟨name', same⟩
    exact (List.append_inj_left' same rfl)

/-- Every prefix of an entry's path is the path of an entry, and a proper one is the path
of a directory. -/
theorem exists_ancestor {n : Node} (mem : n ∈ tree.nodes) {q : Path} (isAbove : q <+: n.path)
    (nonempty : q ≠ []) :
    ∃ m ∈ tree.nodes, m.path = q ∧ (q ≠ n.path → m.isDir = true) := by
  induction len : n.path.length using Nat.strongRecOn generalizing n with
  | ind length ih =>
    by_cases here : q = n.path
    · exact ⟨n, mem, here.symm, fun elsewhere => absurd here elsewhere⟩
    · obtain ⟨parent, name, path, isParent⟩ := tree.named n mem
      have inParent : q <+: parent := by
        rw [path] at isAbove here
        rcases List.prefix_concat_iff.mp isAbove with whole | inParent
        · exact absurd whole here
        · exact inParent
      rcases isParent with rfl | ⟨m, mMem, rfl, isDir⟩
      · exact absurd (List.prefix_nil.mp inParent) nonempty
      · have shorter : m.path.length < length := by
          rw [← len, path, List.length_append, List.length_singleton]
          exact Nat.lt_succ_self _
        obtain ⟨k, kMem, kPath, kDir⟩ := ih _ shorter mMem inParent rfl
        refine ⟨k, kMem, kPath, fun _ => ?_⟩
        by_cases top : q = m.path
        · rw [eq_of_path kMem mMem (kPath.trans top)]
          exact isDir
        · exact kDir top

/-- An entry strictly below a directory is at or below one of its children. -/
theorem exists_child {n : Node} (mem : n ∈ tree.nodes) (isBelow : dir <+: n.path)
    (strict : dir ≠ n.path) : ∃ child ∈ tree.readDir dir, child.path <+: n.path := by
  obtain ⟨rest, path⟩ := isBelow
  cases rest with
  | nil => exact absurd (by simpa using path) strict
  | cons c rest =>
    have isAbove : dir ++ [c] <+: n.path := ⟨rest, by rw [← path, List.append_assoc]; rfl⟩
    obtain ⟨child, childMem, childPath, -⟩ := exists_ancestor mem isAbove (by simp)
    obtain ⟨parent, name, named, -⟩ := tree.named child childMem
    have isName : c = .normal name := by
      rw [childPath] at named
      exact List.singleton_inj.mp (List.append_inj_right' named rfl)
    exact ⟨child, mem_readDir.mpr ⟨childMem, name, by rw [childPath, isName]⟩, childPath ▸ isAbove⟩

/-- The names of a tree are canonical paths. -/
theorem canonical :
    ∀ node ∈ tree.nodes, CanonicalPath node.path := by
  have byLength : ∀ n, ∀ node ∈ tree.nodes, node.path.length = n →
      ∀ component ∈ node.path, component.isNormal = true := by
    intro n
    induction n with
    | zero =>
      intro node mem length component inside
      rw [List.length_eq_zero_iff.mp length] at inside
      cases inside
    | succ n ih =>
      intro node mem length component inside
      obtain ⟨dir, name, path, parent⟩ := tree.named node mem
      rw [path] at inside length
      rcases List.mem_append.mp inside with above | last
      · rcases parent with rfl | ⟨parent, parentMem, rfl, -⟩
        · cases above
        · exact ih parent parentMem (by simpa using length) component above
      · cases List.mem_singleton.mp last
        rfl
  intro node mem
  obtain ⟨dir, name, path, -⟩ := tree.named node mem
  exact ⟨by simp [path], byLength _ node mem rfl⟩

/-- The entry at a path. -/
def entry? (tree : DirectoryTree) (path : Path) : Option Node :=
  tree.nodes.find? fun node => node.path = path

theorem entry?_eq_some {n : Node} :
    tree.entry? p = some n ↔ n ∈ tree.nodes ∧ n.path = p := by
  constructor
  · intro found
    exact ⟨List.mem_of_find?_eq_some found, by simpa using List.find?_some found⟩
  · rintro ⟨mem, path⟩
    cases found : tree.entry? p with
    | none =>
      have absent := List.find?_eq_none.mp found n mem
      simp [path] at absent
    | some m =>
      have there : m.path = p := by simpa using List.find?_some found
      rw [eq_of_path (List.mem_of_find?_eq_some found) mem (there.trans path.symm)]

/-- A depth that no entry exceeds. -/
def levels (tree : DirectoryTree) : Nat :=
  (tree.nodes.map fun node => node.path.length).foldr max 0

/-- Nothing lies below an entry that is not a directory. -/
theorem eq_of_leaf {n m : Node} (leaf : n.isDir = false) (hn : n ∈ tree.nodes)
    (hm : m ∈ tree.nodes) (isBelow : n.path <+: m.path) : m = n := by
  obtain ⟨dir, name, named, -⟩ := tree.named n hn
  obtain ⟨k, kMem, kPath, kDir⟩ := exists_ancestor hm isBelow (by simp [named])
  have same : k = n := eq_of_path kMem hn kPath
  by_cases here : n.path = m.path
  · exact (eq_of_path hn hm here).symm
  · have isDir := kDir here
    rw [same, leaf] at isDir
    cases isDir

/-- The tree without what lies at or below a path. -/
def outside (tree : DirectoryTree) (path : Path) : DirectoryTree where
  nodes := tree.nodes.filter fun node => !node.path.startsWith path
  dev := tree.dev
  nodup := tree.nodup.sublist (List.filter_sublist.map _)
  named := by
    intro node mem
    obtain ⟨mem, kept⟩ := List.mem_filter.mp mem
    obtain ⟨dir, name, named, isParent⟩ := tree.named node mem
    refine ⟨dir, name, named, isParent.imp_right ?_⟩
    rintro ⟨parent, parentMem, rfl, isDir⟩
    refine ⟨parent, List.mem_filter.mpr ⟨parentMem, ?_⟩, rfl, isDir⟩
    rw [Bool.not_eq_true', Path.startsWith_eq_false_iff] at kept ⊢
    exact fun above => kept (named ▸ above.trans (List.prefix_append _ _))

@[simp] theorem outside_dev : (tree.outside p).dev = tree.dev := rfl

theorem mem_outside {n : Node} : n ∈ (tree.outside p).nodes ↔ n ∈ tree.nodes ∧ ¬ p <+: n.path := by
  change n ∈ tree.nodes.filter _ ↔ _
  rw [List.mem_filter, Bool.not_eq_true', Path.startsWith_eq_false_iff]

/-- The entry with another path, when it lies at or below `path`. -/
def relocate (path target : Path) (node : Node) : Node :=
  if node.path.startsWith path then { node with path := target ++ node.path.drop path.length }
  else node

/-- The directory has an entry with the old name, and none with the new one. -/
def CanRename (tree : DirectoryTree) (dir : Path) (old new : Name) : Prop :=
  (∃ node ∈ tree.nodes, node.path = dir ++ [.normal old]) ∧
    ∀ node ∈ tree.nodes, node.path ≠ dir ++ [.normal new]

instance (dir : Path) (old new : Name) : Decidable (tree.CanRename dir old new) :=
  inferInstanceAs (Decidable (_ ∧ _))

section Rename

variable {old new : Name}

theorem relocate_below {path target : Path} (rest : Path) {n : Node} (here : n.path = path ++ rest) :
    relocate path target n = { n with path := target ++ rest } := by
  have below : n.path.startsWith path = true :=
    Path.startsWith_iff.mpr (here ▸ List.prefix_append _ _)
  unfold relocate
  rw [if_pos below, here, List.drop_left]

theorem relocate_apart {path target : Path} {n : Node} (apart : ¬ path <+: n.path) :
    relocate path target n = n :=
  if_neg fun below => apart (Path.startsWith_iff.mp below)

/-- Nothing lies below a name that the directory does not have. -/
theorem CanRename.free (can : tree.CanRename dir old new) {n : Node} (mem : n ∈ tree.nodes) :
    ¬ dir ++ [.normal new] <+: n.path := by
  intro below
  obtain ⟨m, mMem, path, -⟩ := exists_ancestor mem below (by simp)
  exact can.2 m mMem path

theorem relocate_dir_below (new : Name) {n : Node} (h : dir ++ [.normal old] <+: n.path) :
    dir ++ [.normal new] <+:
      (relocate (dir ++ [.normal old]) (dir ++ [.normal new]) n).path := by
  obtain ⟨rest, path⟩ := h
  rw [relocate_below _ path.symm]
  exact List.prefix_append _ _

/-- An entry and what lies below it have another name in the same directory. -/
def rename (tree : DirectoryTree) (dir : Path) (old new : Name)
    (can : tree.CanRename dir old new) : DirectoryTree where
  nodes := tree.nodes.map (relocate (dir ++ [.normal old]) (dir ++ [.normal new]))
  dev := tree.dev
  nodup := by
    rw [List.map_map]
    refine tree.nodup_nodes.map_on fun n hn m hm same => eq_of_path hn hm ?_
    change (relocate _ _ n).path = (relocate _ _ m).path at same
    by_cases nBelow : dir ++ [.normal old] <+: n.path <;>
      by_cases mBelow : dir ++ [.normal old] <+: m.path
    · obtain ⟨nRest, nPath⟩ := nBelow
      obtain ⟨mRest, mPath⟩ := mBelow
      rw [relocate_below _ nPath.symm, relocate_below _ mPath.symm] at same
      rw [← nPath, ← mPath, List.append_cancel_left same]
    · have moved := relocate_dir_below new nBelow
      rw [same, relocate_apart mBelow] at moved
      exact absurd moved (can.free hm)
    · have moved := relocate_dir_below new mBelow
      rw [← same, relocate_apart nBelow] at moved
      exact absurd moved (can.free hn)
    · rwa [relocate_apart nBelow, relocate_apart mBelow] at same
  named := by
    intro node mem
    obtain ⟨n, hn, rfl⟩ := List.mem_map.mp mem
    obtain ⟨parent, name, named, isParent⟩ := tree.named n hn
    by_cases below : dir ++ [.normal old] <+: n.path
    · rcases List.prefix_concat_iff.mp (named ▸ below) with whole | above
      · -- the entry itself stays in its directory
        have split := List.append_inj' whole rfl
        refine ⟨dir, new, ?_, ?_⟩
        · rw [relocate_below [] (by rw [named, ← whole, List.append_nil])]
          exact List.append_nil _
        · rcases isParent with rfl | ⟨m, mMem, rfl, isDir⟩
          · exact .inl split.1
          · refine .inr ⟨relocate _ _ m, List.mem_map_of_mem mMem, ?_⟩
            have apart : ¬ dir ++ [.normal old] <+: m.path := by
              intro inside
              have longer := inside.length_le
              rw [← split.1, List.length_append, List.length_singleton] at longer
              omega
            rw [relocate_apart apart]
            exact ⟨split.1.symm, isDir⟩
      · obtain ⟨rest, parentPath⟩ := above
        refine ⟨dir ++ [.normal new] ++ rest, name, ?_, .inr ?_⟩
        · rw [relocate_below (rest ++ [.normal name])
            (by rw [named, ← parentPath, List.append_assoc])]
          exact (List.append_assoc _ _ _).symm
        · rcases isParent with rfl | ⟨m, mMem, rfl, isDir⟩
          · simp at parentPath
          · refine ⟨relocate _ _ m, List.mem_map_of_mem mMem, ?_⟩
            rw [relocate_below _ parentPath.symm]
            exact ⟨rfl, isDir⟩
    · refine ⟨parent, name, by rw [relocate_apart below, named], isParent.imp_right ?_⟩
      rintro ⟨m, mMem, rfl, isDir⟩
      have apart : ¬ dir ++ [.normal old] <+: m.path := fun inside =>
        below (named ▸ inside.trans (List.prefix_append _ _))
      exact ⟨relocate _ _ m, List.mem_map_of_mem mMem, by rw [relocate_apart apart]; exact ⟨rfl, isDir⟩⟩

end Rename

end DirectoryTree

end Duet
